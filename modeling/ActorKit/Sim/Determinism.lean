import ActorKit.Sim.Frame
import ActorKit.Sim.Restarts

/-!
# The simulation is deterministic

The clock readings of the supervisor and the ids it mints stay in the supervisor
tree. Two simulations that differ in them have supervisors that differ in the ids
of the children and the times in the logs; while the readings lie within one
window, only the lengths of the logs matter. Everything else of the two
simulations is the same.
-/

namespace ActorKit.Sim.Determinism
open ActorKit.mailbox ActorKit.registry ActorKit.queue ActorKit.scheduler ActorKit.supervisor ActorKit.sim
open ActorKit.Window ActorKit.Hidden ActorKit.Sim.Restarts ActorKit.Sim.Frame

/-! ## Two supervisors -/

/-- A child without its id. -/
def shown (child : SupervisedChild) : ChildSpec × ChildState × Nat := (child.spec,child.state,child.start_order)

/-- Every time in a log was read from the clock. -/
def Stamped (outside : Outside) (sup : Supervisor) : Prop :=
  ∀ name log, sup.restart_counts.lookup name = some log → ∀ t ∈ log, ∃ k, t = (outside.readings k).record

/-- Two supervisors of one simulated world, with their own clocks. -/
structure Same (outside outside' : Outside) (sup sup' : Supervisor) : Prop where
  strategy : ∃ limit, sup.strategy = .OneForOne limit window ∧ sup'.strategy = .OneForOne limit window
  action : sup'.escalation_action = sup.escalation_action
  order : sup'.next_start_order = sup.next_start_order
  total : sup'.total_restarts = sup.total_restarts
  children : ∀ name, (sup'.children.lookup name).map shown = (sup.children.lookup name).map shown
  logs : ∀ name, (sup'.restart_counts.lookup name).map List.length = (sup.restart_counts.lookup name).map List.length
  stamped : Stamped outside sup
  stamped' : Stamped outside' sup'

/-- Both know a child, or neither does. -/
theorem shown_cases {found found' : Option SupervisedChild} (same : found'.map shown = found.map shown) :
    (found = none ∧ found' = none) ∨
    ∃ child child', found = some child ∧ found' = some child' ∧ child'.spec = child.spec ∧ child'.state = child.state ∧
      child'.start_order = child.start_order := by
  match found,found',same with
  | none,none,_ => exact .inl ⟨rfl,rfl⟩
  | some child,some child',same =>
    simp only [Option.map_some,Option.some.injEq,shown,Prod.mk.injEq] at same
    exact .inr ⟨child,child',rfl,rfl,same⟩

/-- Both have a log, of one length, or neither does. -/
theorem log_cases {log log' : Option (List Instant)} (same : log'.map List.length = log.map List.length) :
    (log = none ∧ log' = none) ∨ ∃ times times', log = some times ∧ log' = some times' ∧ times'.length = times.length := by
  match log,log',same with
  | none,none,_ => exact .inl ⟨rfl,rfl⟩
  | some times,some times',same => exact .inr ⟨times,times',rfl,rfl,by simpa using same⟩

/-- Within one window nothing is forgotten. -/
theorem recent_stamped {outside : Outside} {sup : Supervisor} (close : Close outside) (stamped : Stamped outside sup)
    {name : String} {log : List Instant} (found : sup.restart_counts.lookup name = some log) (k : Nat) :
    recent (outside.readings k).check window log = log ∧ recent (outside.readings k).record window log = log := by
  constructor
  · refine List.filter_eq_self.mpr (fun t member => ?_)
    obtain ⟨l,rfl⟩ := stamped name log found t member
    simpa using (close k l).1
  · refine List.filter_eq_self.mpr (fun t member => ?_)
    obtain ⟨l,rfl⟩ := stamped name log found t member
    simpa using (close k l).2

/-- The count a refusal names. -/
def spent (sup : Supervisor) (name : String) : UInt32 :=
  match sup.restart_counts.lookup name with
  | some timestamps => (u32_try_from timestamps.length).getD MAX_RESTART_THRESHOLD
  | none => 0

theorem exceeded_eq (sup : Supervisor) (name : String) (limit : UInt32) :
    sup.handle_max_restarts_exceeded name limit =
      ({ sup with children := sup.children.modify name (fun c => { c with state := .Stopped (.Error
          ("max restarts exceeded (" ++ toString (spent sup name) ++ "/" ++ toString limit ++ ")")) }) },
        match sup.escalation_action with
        | .Escalate | .ShutdownNode => .error (SupervisorError.MaxRestartsExceeded name (spent sup name) limit).into
        | .GiveUp => .ok ()) := by
  simp only [Supervisor.handle_max_restarts_exceeded,spent]
  cases sup.escalation_action <;> rfl

theorem exit_eq {sup : Supervisor} {name : String} {child : SupervisedChild} {limit : UInt32} {within : Duration}
    (found : sup.children.lookup name = some child) (strategy : sup.strategy = .OneForOne limit within)
    (reason : ExitReason) (now : Readings) (mint : String → ActorId) :
    sup.handle_child_exit name reason now mint =
      if !Supervisor.should_restart child.spec.restart_policy reason then
        ({ sup with children := sup.children.modify name (fun c => { c with state := .Stopped reason }) },.ok ())
      else sup.restart_one_for_one name limit within now mint := by
  unfold Supervisor.handle_child_exit
  rw [found]
  simp only
  split
  · rfl
  · split
    · next other => rw [strategy] at other; cases other
    · next same => rw [strategy] at same; cases same; rfl
    · next other => rw [strategy] at other; cases other
    · next other => rw [strategy] at other; cases other

theorem shown_state {c c' : SupervisedChild} (equal : shown c' = shown c) (state : ChildState) :
    shown { c' with state } = shown { c with state } := by
  simp only [shown,Prod.mk.injEq] at equal ⊢
  exact ⟨equal.1,trivial,equal.2.2⟩

namespace Same
variable {outside outside' : Outside} {sup sup' : Supervisor} (same : Same outside outside' sup sup')
  (close : Close outside) (close' : Close outside')
include same

/-- The same change of a child, whatever becomes of its id. -/
theorem modified (name : String) {f f' : SupervisedChild → SupervisedChild}
    (changes : ∀ child child', shown child' = shown child → shown (f' child') = shown (f child)) :
    Same outside outside' { sup with children := sup.children.modify name f }
      { sup' with children := sup'.children.modify name f' } where
  strategy := same.strategy
  action := same.action
  order := same.order
  total := same.total
  children := by
    intro other
    have before := same.children other
    simp only [Dict.lookup_modify]
    split
    · match sup.children.lookup other,sup'.children.lookup other,before with
      | none,none,_ => rfl
      | some child,some child',before =>
        simp only [Option.map_some,Option.some.injEq] at before ⊢
        exact changes child child' before
    · exact before
  logs := same.logs
  stamped := same.stamped
  stamped' := same.stamped'

theorem marked (name : String) : Same outside outside' (sup.mark_child_running name).1 (sup'.mark_child_running name).1 := by
  unfold Supervisor.mark_child_running
  rcases shown_cases (same.children name) with ⟨none,none'⟩ | ⟨child,child',found,found',-,state,-⟩
  · rw [none,none']
    exact same
  · rw [found,found']
    simp only [state]
    split
    · exact same.modified name (fun c c' equal => shown_state equal _)
    · exact same.modified name (fun c c' equal => shown_state equal _)
    · exact same
    · exact same

/-- A new child is accepted by both or refused by both. -/
theorem started (spec : ChildSpec) (id id' : ActorId) :
    Same outside outside' (sup.start_child spec id).1 (sup'.start_child spec id').1 ∧
    ((sup.start_child spec id).2 = .ok id ∧ (sup'.start_child spec id').2 = .ok id' ∨
      (sup.start_child spec id).2 = (sup'.start_child spec id').2) := by
  unfold Supervisor.start_child
  rcases shown_cases (same.children spec.name) with ⟨none,none'⟩ | ⟨child,child',found,found',-⟩
  · rw [none,none']
    refine ⟨⟨same.strategy,same.action,?_,same.total,?_,same.logs,same.stamped,same.stamped'⟩,.inl ⟨rfl,rfl⟩⟩
    · simp [same.order]
    · intro name
      simp only [Option.isSome_none,Bool.false_eq_true,if_false,Dict.lookup_insert_ite]
      split
      · simp [shown,same.order]
      · exact same.children name
  · rw [found,found']
    exact ⟨same,.inr rfl⟩

include close close'

theorem checked (name : String) (limit : UInt32) (k : Nat) :
    sup'.check_restart_allowed name limit window (outside'.readings k).check =
      sup.check_restart_allowed name limit window (outside.readings k).check := by
  unfold Supervisor.check_restart_allowed
  rcases log_cases (same.logs name) with ⟨none,none'⟩ | ⟨times,times',found,found',length⟩
  · rw [none,none']
  · rw [found,found']
    simp only [(recent_stamped close same.stamped found k).1,(recent_stamped close' same.stamped' found' k).1,length]

/-- A restart is logged by both. -/
theorem charged (name : String) (k : Nat) :
    Same outside outside' (sup.charge name (outside.readings k).record) (sup'.charge name (outside'.readings k).record) := by
  obtain ⟨limit,strategy,strategy'⟩ := same.strategy
  -- The log with the new time, nothing forgotten.
  have kept : ∀ {o : Outside} {s : Supervisor}, Close o → Stamped o s →
      recent (o.readings k).record window ((s.restart_counts.lookup name).getD [] ++ [(o.readings k).record]) =
        (s.restart_counts.lookup name).getD [] ++ [(o.readings k).record] := by
    intro o s close stamped
    rw [recent_append]
    have last : recent (o.readings k).record window [(o.readings k).record] = [(o.readings k).record] := by
      simpa [recent] using (close k k).2
    rw [last]
    cases log : s.restart_counts.lookup name with
    | none => rfl
    | some times => rw [Option.getD_some,(recent_stamped close stamped log k).2]
  have stamps : ∀ {o : Outside} {s : Supervisor}, Stamped o s → ∀ other times,
      (s.restart_counts.insert name ((s.restart_counts.lookup name).getD [] ++ [(o.readings k).record])).lookup other =
        some times → ∀ t ∈ times, ∃ l, t = (o.readings l).record := by
    intro o s stamped other times found t member
    rw [Dict.lookup_insert_ite] at found
    split at found
    · cases found
      rcases List.mem_append.mp member with old | new
      · cases log : s.restart_counts.lookup name with
        | none =>
          rw [log] at old
          cases old
        | some before =>
          rw [log] at old
          exact stamped name before log t old
      · exact ⟨k,List.mem_singleton.mp new⟩
    · exact stamped other times found t member
  simp only [Supervisor.charge,Supervisor.record_restart,strategy,strategy',SupervisionStrategy.within,
    kept close same.stamped,kept close' same.stamped']
  refine ⟨⟨limit,rfl,rfl⟩,same.action,same.order,by simp only [same.total],same.children,?_,
    stamps same.stamped,stamps same.stamped'⟩
  intro other
  simp only [Dict.lookup_insert_ite]
  split
  · rcases log_cases (same.logs name) with ⟨none,none'⟩ | ⟨times,times',found,found',length⟩
    · simp [none,none']
    · simp [found,found',length]
  · exact same.logs other

omit close close' in
theorem attempts (name : String) : sup'.attempt name = sup.attempt name := by
  unfold Supervisor.attempt
  rcases log_cases (same.logs name) with ⟨none,none'⟩ | ⟨times,times',found,found',length⟩
  · rw [none,none']
  · rw [found,found']
    simp only [length]

omit close close' in
theorem exceeded (name : String) (limit : UInt32) :
    (sup'.handle_max_restarts_exceeded name limit).2 = (sup.handle_max_restarts_exceeded name limit).2 ∧
    Same outside outside' (sup.handle_max_restarts_exceeded name limit).1
      (sup'.handle_max_restarts_exceeded name limit).1 := by
  have counts : spent sup' name = spent sup name := by
    unfold spent
    rcases log_cases (same.logs name) with ⟨none,none'⟩ | ⟨times,times',found,found',length⟩
    · rw [none,none']
    · rw [found,found']
      simp only [length]
  rw [exceeded_eq,exceeded_eq,counts]
  constructor
  · simp only [same.action]
  · exact same.modified name (fun c c' equal => shown_state equal _)

/-- An exit is answered in the same way. -/
theorem exited (name : String) (reason : ExitReason) (k : Nat) (mint mint' : String → ActorId) :
    (sup'.handle_child_exit name reason (outside'.readings k) mint').2 =
      (sup.handle_child_exit name reason (outside.readings k) mint).2 ∧
    Same outside outside' (sup.handle_child_exit name reason (outside.readings k) mint).1
      (sup'.handle_child_exit name reason (outside'.readings k) mint').1 := by
  obtain ⟨limit,strategy,strategy'⟩ := same.strategy
  rcases shown_cases (same.children name) with ⟨none,none'⟩ | ⟨child,child',found,found',spec,state,-⟩
  · unfold Supervisor.handle_child_exit
    rw [none,none']
    exact ⟨rfl,same⟩
  · rw [exit_eq found strategy,exit_eq found' strategy',spec]
    simp only [Supervisor.restart_one_for_one,same.checked close close' name limit k]
    split
    · exact ⟨rfl,same.modified name (fun c c' equal => shown_state equal _)⟩
    · split
      · exact same.exceeded name limit
      · have after := same.charged close close' name k
        refine ⟨rfl,after.modified name (fun c c' equal => ?_)⟩
        simp only [shown,Prod.mk.injEq,after.attempts] at equal ⊢
        exact ⟨equal.1,trivial,equal.2.2⟩

end Same

/-! ## Two worlds -/

/-- What the clock and the random ids flow into. -/
structure Unseen where
  tree : SupervisorTree
  root : ActorId
  outside : Outside

/-- A world with another supervisor tree. -/
def Unseen.under (t : Unseen) (s : Sim) : Sim := { s with tree := t.tree, root := t.root, outside := t.outside }

/-- The root supervisors are the same up to ids and times. -/
structure Counterpart (t t' : Unseen) : Prop where
  close : Close t.outside
  close' : Close t'.outside
  roots : ∃ sup sup', t.tree.supervisors.lookup t.root = some sup ∧ t'.tree.supervisors.lookup t'.root = some sup' ∧
    Same t.outside t'.outside sup sup'

/-- A method that neither the clock nor the ids have an influence on. -/
abbrev Unaffected {α : Type} (p : SimM α) : Prop := Blind Unseen.under Counterpart p

/-! ### Methods that do not call the supervisor -/

/-- The same, where more is hidden. -/
structure Counterveiled (t t' : Veiled) : Prop where
  unseen : Counterpart ⟨t.tree,t.root,t.outside⟩ ⟨t'.tree,t'.root,t'.outside⟩
  still : t'.still = t.still

theorem unaffected_of_leaves {α : Type} {p : SimM α} (leaves : ∀ fixed, Leaves fixed Counterveiled p) : Unaffected p := by
  refine .of_family (fun s s' twin => ?_) (fun fixed s s' twin => ?_) leaves
  · obtain ⟨t,t',rest,related,rfl,rfl⟩ := twin
    refine ⟨⟨rest.config,rest.tick⟩,⟨t.tree,t.root,t.outside,?_⟩,⟨t'.tree,t'.root,t'.outside,?_⟩,rest,⟨related,?_⟩,?_,?_⟩
    · exact ⟨rest.config.actors,rest.config.messages,[],rest.ready.last_served⟩
    · exact ⟨rest.config.actors,rest.config.messages,[],rest.ready.last_served⟩
    · rfl
    · rfl
    · rfl
  · obtain ⟨t,⟨tree,root,outside,still⟩,rest,⟨related,same⟩,rfl,rfl⟩ := twin
    cases same
    exact ⟨_,_,t.over fixed rest,related,rfl,rfl⟩

theorem aims_same (t t' : Veiled) (related : Counterveiled t t') : t'.still.actors = t.still.actors := by rw [related.still]

theorem pick_next_unaffected : Unaffected pick_next := by
  refine .get_bind (fun _ _ _ _ => rfl) (fun s => .lift_bind _ (fun picked => ?_))
  exact .bind (.modify (fun _ _ => rfl)) (fun _ => .pure _)

/-! ### Methods that call the supervisor -/

/-- The root supervisor of each world changes, the rest as well. -/
theorem twin_under {t t' : Unseen} (related : Counterpart t t') {f f' : Supervisor → Supervisor}
    (keeps : ∀ sup sup', Same t.outside t'.outside sup sup' → Same t.outside t'.outside (f sup) (f' sup')) :
    Counterpart { t with tree := { t.tree with supervisors := t.tree.supervisors.modify t.root f } }
      { t' with tree := { t'.tree with supervisors := t'.tree.supervisors.modify t'.root f' } } := by
  obtain ⟨sup,sup',found,found',same⟩ := related.roots
  exact ⟨related.close,related.close',f sup,f' sup',by simp [found],by simp [found'],keeps sup sup' same⟩

/-- A child is accepted in both worlds, whatever its id, or refused in both. -/
def SameVerdict (x y : Except Error ActorId) : Prop := (∃ id id', x = .ok id ∧ y = .ok id') ∨ x = y

theorem supervise_related (ord : Nat) :
    Related Unseen.under Counterpart SameVerdict (modifyGet (·.supervise ord) : SimM _) (modifyGet (·.supervise ord)) := by
  refine .modifyGet _ _ (fun t t' rest related => ?_)
  obtain ⟨sup,sup',found,found',same⟩ := related.roots
  have started := same.started { name := supervisor_name ord, restart_policy := .Permanent }
    (t.outside.ids rest.minted) (t'.outside.ids rest.minted)
  have left : (t.under rest).tree.supervisors.lookup (t.under rest).root = some sup := found
  have right : (t'.under rest).tree.supervisors.lookup (t'.under rest).root = some sup' := found'
  simp only [Sim.supervise,SupervisorTree.start_child_under,left,right]
  constructor
  · rcases started.2 with ⟨ok,ok'⟩ | equal
    · exact .inl ⟨_,_,ok,ok'⟩
    · exact .inr equal
  · refine ⟨_,_,{ rest with minted := rest.minted + 1 },twin_under related (fun s s' same => ?_),rfl,rfl⟩
    exact (same.started _ _ _).1

theorem report_leaves (fixed : Fixed) (ord : Nat) : Leaves fixed Counterveiled (modifyGet (·.report ord)) := by
  refine Related.modifyGet _ _ (fun t t' rest related => ?_)
  obtain ⟨sup,sup',found,found',same⟩ := related.unseen.roots
  have exited := same.exited related.unseen.close related.unseen.close' (supervisor_name ord) (.Error SIM_CRASH_MESSAGE)
    rest.exits (fun _ => t.outside.ids rest.minted) (fun _ => t'.outside.ids rest.minted)
  have left : (t.over fixed rest).tree.supervisors.lookup (t.over fixed rest).root = some sup := found
  have right : (t'.over fixed rest).tree.supervisors.lookup (t'.over fixed rest).root = some sup' := found'
  simp only [Sim.report,SupervisorTree.handle_child_exit,left,right]
  constructor
  · exact exited.1.symm
  · refine ⟨⟨_,_,_,_⟩,⟨_,_,_,_⟩,{ rest with exits := rest.exits + 1, minted := rest.minted + 1 },
      ⟨twin_under related.unseen (fun s s' same => ?_),related.still⟩,rfl,rfl⟩
    exact (same.exited related.unseen.close related.unseen.close' _ _ _ _ _).2

theorem retire_leaves (fixed : Fixed) (ord : Nat) (old : ActorId) :
    Leaves fixed Counterveiled (modify (·.retire ord old)) := by
  rintro s s' ⟨t,t',rest,related,rfl,rfl⟩
  refine ⟨rfl,⟨_,_,_,_⟩,⟨_,_,_,_⟩,rest.retire ord old,⟨twin_under related.unseen (fun s s' same => ?_),related.still⟩,rfl,rfl⟩
  exact same.marked (supervisor_name ord)

theorem spawn_actor_unaffected (ord : Nat) : Unaffected (spawn_actor ord) := by
  refine .bind (.modifyGet (fun _ _ => rfl)) (fun registered => .lift_bind _ (fun _ => ?_))
  refine Related.bind (supervise_related ord) (fun x y verdict => ?_)
  refine Related.bind (V := fun _ _ => True) (.lift ?_) (fun _ _ _ => ?_)
  · rcases verdict with ⟨id,id',rfl,rfl⟩ | rfl
    · exact trivial
    · cases x with
      | ok id => exact trivial
      | error e => exact rfl
  · exact Blind.bind (.modify (fun _ _ => rfl)) (fun _ => unaffected_of_leaves (fun _ => deliver_or_block_leaves _ _ _ _))

theorem with_config_unaffected : Unaffected with_config :=
  .get_bind (fun _ _ _ _ => rfl) (fun _ => .forM _ spawn_actor_unaffected)

theorem process_ready_unaffected (draws : Nat) : Unaffected (process_ready draws) :=
  process_ready_blind pick_next_unaffected (fun task => unaffected_of_leaves (fun fixed =>
    process_chosen_leaves (report_leaves fixed) (retire_leaves fixed) task)) draws

/-- The audits read one number of the tree. -/
theorem audit_counts_same {t t' : Unseen} (related : Counterpart t t') (s : Sim) :
    (t.under s).audit_counts = (t'.under s).audit_counts := by
  obtain ⟨sup,sup',found,found',same⟩ := related.roots
  have left : (t.under s).tree.supervisors.lookup (t.under s).root = some sup := found
  have right : (t'.under s).tree.supervisors.lookup (t'.under s).root = some sup' := found'
  have total : sup'.count_children.total_restarts = sup.count_children.total_restarts := same.total
  have restarts : (t.under s).audit_restarts = (t'.under s).audit_restarts := by
    unfold Sim.audit_restarts
    simp only [left,right,expect,bind,Except.bind,total]
    rfl
  unfold Sim.audit_counts
  rw [restarts]
  rfl

theorem round_unaffected : Unaffected round := by
  refine .get_bind (fun _ _ _ _ => rfl) (fun s => .lift_bind _ (fun _ => .bind (.modify (fun _ _ => rfl)) (fun _ => ?_)))
  refine .bind (unaffected_of_leaves (fun _ => inject_workload_leaves aims_same)) (fun _ => ?_)
  refine .bind (unaffected_of_leaves (fun _ => deliver_due_leaves)) (fun _ => ?_)
  refine .bind (unaffected_of_leaves (fun _ => retry_blocked_leaves)) (fun _ => .bind (process_ready_unaffected _) (fun _ => ?_))
  exact .get_bind (fun _ _ s related => by rw [audit_counts_same related]) (fun s => .lift _)

theorem rounds_unaffected (steps executed : Nat) : Unaffected (rounds steps executed) := by
  induction steps generalizing executed with
  | zero => exact .pure _
  | succ steps ih =>
    exact .get_bind (fun _ _ _ _ => rfl) (fun s => .ite (.pure _) (.bind round_unaffected (fun _ => ih _)))

theorem run_unaffected (steps : Nat) : Unaffected (run steps) := by
  refine .bind (rounds_unaffected steps 0) (fun executed => .get_bind (fun _ _ _ _ => rfl) (fun s => ?_))
  cases s.is_quiescent
  · exact .pure _
  · exact .lift_bind _ (fun _ => .pure _)

/-! ## Two simulations -/

/-- Clock readings that never go back and span less than one window. -/
structure Steady (outside : Outside) : Prop where
  check_le : ∀ k, (outside.readings k).check ≤ (outside.readings k).record
  record_le : ∀ k, (outside.readings k).record ≤ (outside.readings (k + 1)).check
  spans : ∀ k, (outside.readings k).record - (outside.readings 0).check < window

theorem close_of_steady {outside : Outside} (steady : Steady outside) : Close outside := by
  have first : ∀ k, (outside.readings 0).check ≤ (outside.readings k).check := by
    intro k
    induction k with
    | zero => exact Nat.le_refl _
    | succ k ih => exact ih.trans ((steady.check_le k).trans (steady.record_le k))
  intro k l
  have earliest := (first l).trans (steady.check_le l)
  have span : (outside.readings k).record - (outside.readings l).record < window :=
    (Nat.sub_le_sub_left earliest _).trans_lt (steady.spans k)
  exact ⟨(Nat.sub_le_sub_right (steady.check_le k) _).trans_lt span,span⟩

/-- The worlds two simulations begin with. -/
theorem start_twins (seed : UInt64) (config : SimConfig) (draws : Nat → UInt64) {outside outside' : Outside}
    (close : Close outside) (close' : Close outside') :
    Twin Unseen.under Counterpart (.start seed config draws outside) (.start seed config draws outside') := by
  have roots (o : Outside) : (Sim.start seed config draws o).tree.supervisors.lookup (Sim.start seed config draws o).root =
      some (.new (o.ids 0) (.OneForOne config.max_restarts window)) := AList.lookup_insert _
  refine ⟨⟨_,outside.ids 0,outside⟩,⟨_,outside'.ids 0,outside'⟩,.start seed config draws outside,
    ⟨close,close',_,_,roots outside,roots outside',?_⟩,rfl,rfl⟩
  exact ⟨⟨_,rfl,rfl⟩,rfl,rfl,rfl,fun _ => rfl,fun _ => rfl,nofun,nofun⟩

/-- The world is built and run to quiescence. -/
def simulation (seed : UInt64) (config : SimConfig) (draws : Nat → UInt64) (outside : Outside) :
    EStateM.Result Failure Sim SimOutcome :=
  (do with_config; run_to_quiescence).run (.start seed config draws outside)

/-- What can be observed of a simulation: its outcome or the panic that ended it,
    the trace, the counters and the hash. -/
def observed : EStateM.Result Failure Sim SimOutcome → Except Failure SimOutcome × List TraceOp × SimStats × UInt64
  | .ok outcome s => (.ok outcome,s.trace,s.stats,s.trace_hash)
  | .error failure s => (.error failure,s.trace,s.stats,s.trace_hash)

theorem observed_alike {result result' : EStateM.Result Failure Sim SimOutcome}
    (alike : Alike Unseen.under Counterpart Eq result result') : observed result = observed result' := by
  have same : ∀ {s s' : Sim}, Twin Unseen.under Counterpart s s' → s.trace = s'.trace ∧ s.stats = s'.stats := by
    rintro _ _ ⟨t,t',rest,-,rfl,rfl⟩
    exact ⟨rfl,rfl⟩
  cases result with
  | ok outcome s =>
    cases result' with
    | ok outcome' s' =>
      obtain ⟨rfl,twin⟩ := alike
      simp only [observed,Sim.trace_hash,(same twin).1,(same twin).2]
    | error failure s' => exact alike.elim
  | error failure s =>
    cases result' with
    | ok outcome s' => exact alike.elim
    | error failure' s' =>
      obtain ⟨rfl,twin⟩ := alike
      simp only [observed,Sim.trace_hash,(same twin).1,(same twin).2]

/-- Whatever the seed, the configuration and the draws: two simulations whose
    supervisors read other clocks, neither of which goes back or spans an hour, and
    mint other ids end with the same outcome, the same trace, the same counters and
    the same hash. -/
theorem outcome_determined (seed : UInt64) (config : SimConfig) (draws : Nat → UInt64) (outside outside' : Outside)
    (steady : Steady outside) (steady' : Steady outside') :
    observed (simulation seed config draws outside) = observed (simulation seed config draws outside') := by
  have unaffected : Unaffected (do with_config; run_to_quiescence) :=
    .bind with_config_unaffected (fun _ => run_unaffected _)
  exact observed_alike
    (unaffected _ _ (start_twins seed config draws (close_of_steady steady) (close_of_steady steady')))

/-- Three messages, and a crash at each of them. -/
def faltering : SimConfig := { actors := 1, messages := 3, injection_rate := .finite 0, faults := { crash_prob := .finite 1 } }

/-- A clock that stands still, and one that ticks for an hour less a moment; the
    supervisor reads them at three restarts. -/
theorem outcome_determined_clocks :
    observed (simulation 7 faltering (fun n => .ofNat (2 ^ 64 - 1 - n * n))
        ⟨fun _ => ⟨0,0⟩,fun k => ⟨.ofNat 128 k⟩⟩) =
      observed (simulation 7 faltering (fun n => .ofNat (2 ^ 64 - 1 - n * n))
        ⟨fun k => ⟨min k (window - 1),min k (window - 1)⟩,fun k => ⟨.ofNat 128 (3 * k)⟩⟩) ∧
    (observed (simulation 7 faltering (fun n => .ofNat (2 ^ 64 - 1 - n * n))
      ⟨fun _ => ⟨0,0⟩,fun k => ⟨.ofNat 128 k⟩⟩)).2.2.1.restarted = 3 := by
  have hour : 0 < window := by decide
  have still : Steady ⟨fun _ => ⟨0,0⟩,fun k => ⟨.ofNat 128 k⟩⟩ := ⟨fun _ => Nat.le_refl _,fun _ => Nat.le_refl _,fun _ => hour⟩
  have ticks : Steady ⟨fun k => ⟨min k (window - 1),min k (window - 1)⟩,fun k => ⟨.ofNat 128 (3 * k)⟩⟩ := by
    refine ⟨fun _ => Nat.le_refl _,fun k => ?_,fun k => ?_⟩
    · exact min_le_min (Nat.le_succ k) (Nat.le_refl _)
    · exact ((Nat.sub_le _ _).trans (min_le_right k (window - 1))).trans_lt (Nat.sub_lt hour Nat.one_pos)
  exact ⟨outcome_determined 7 faltering _ _ _ still ticks,by decide +kernel⟩

end ActorKit.Sim.Determinism
