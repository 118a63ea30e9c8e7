import ActorKit.Delivery

/-!
# Outcomes of enqueued messages

While an actor is neither stopped nor failed, a message of one of its tasks is
queued, in the hand of a worker, executed, or put back into the mailbox by the
`Suspended` arm. The account is kept for messages that are not consumed as
control messages and not taken by a drain.
-/

namespace ActorKit.Outcomes
open ActorKit.mailbox ActorKit.registry ActorKit.queue ActorKit.scheduler ActorKit.MailboxCalls ActorKit.Moves
open ActorKit.Inventory ActorKit.Transition ActorKit.Counting ActorKit.Delivery

/-- The actor is neither stopped nor failed. -/
def Alive (a : ActorId) (s : System) : Prop :=
  ∀ state, s.shared.registry.get_state a = some state → state ≠ .Stopped ∧ state ≠ .Failed

/-- The messages of a job that are neither executed nor re-queued. -/
def owed (job : Job) : List Message :=
  match job.stage with
  | .get_state m | .execute m => m :: job.rest
  | _ => job.rest

def owedBy (a : ActorId) (w : Worker) : List Message :=
  match holding w with
  | some job => if job.actor_id = a then owed job else []
  | none => []

/-- How often a message was executed or re-queued. -/
def settled (a : ActorId) (m : Message) (g : Shared) : Nat :=
  g.history.executed.count (a,m) + g.history.requeued.count (a,m)

/-- A job that will process all its messages. -/
structure Whole (job : Job) : Prop where
  single : job.batch = false → job.rest = []
  unpanicked : job.stage ≠ .panic_mailbox ∧ job.stage ≠ .panic_clear

/-! ## One call of a job -/

/-- A message that the next call neither consumes as a control message nor takes
    out of the mailbox. -/
structure Spared (m : Message) (g : Shared) (job : Job) : Prop where
  plain : job.stage = .get_state m → g.registry.get_state job.actor_id = some .Suspended → is_control m.payload = false
  undrained : job.stage = .drain_pop → ∀ mb, g.registry.mailboxes.lookup job.actor_id = some mb →
    mb.try_recv.2 ≠ some m

/-- What one call of a job does to the account of the messages. -/
structure Owes (g : Shared) (job : Job) (g' : Shared) (next : Option Job) : Prop where
  account : ∀ m, Spared m g job → ((next.map owed).getD []).count m + settled job.actor_id m g' =
    (owed job).count m + settled job.actor_id m g
  single : ∀ job', next = some job' → job'.batch = false → job'.rest = []
  panics : ∀ job', next = some job' → job'.stage = .panic_mailbox ∨ job'.stage = .panic_clear → job.stage = .panic

theorem finish_owes {g g' : Shared} {job : Job} (single : job.batch = false → job.rest = [])
    (later : owed job = job.rest) (same : ∀ m, settled job.actor_id m g' = settled job.actor_id m g) :
    Owes g job g' job.finish := by
  unfold Job.finish
  split
  · refine ⟨fun _ _ => by rw [later,same]; rfl,?_,?_⟩ <;> rintro _ ⟨⟩
    · exact single
    · simp
  · split
    · refine ⟨fun _ _ => by rw [later,same]; rfl,?_,?_⟩ <;> rintro _ ⟨⟩
      · exact single
      · simp
    · next done =>
      refine ⟨fun _ _ => ?_,?_,?_⟩
      · rw [later,same,single (by simpa using done)]
        rfl
      · rintro _ ⟨⟩
      · rintro _ ⟨⟩

theorem goto_owes {g g' : Shared} {job : Job} {stage : Stage} (single : job.batch = false → job.rest = [])
    (panics : stage = .panic_mailbox ∨ stage = .panic_clear → job.stage = .panic)
    (account : ∀ m, Spared m g job → (owed { job with stage }).count m + settled job.actor_id m g' =
      (owed job).count m + settled job.actor_id m g) : Owes g job g' (some { job with stage }) := by
  refine ⟨account,?_,?_⟩ <;> rintro _ ⟨⟩
  · exact single
  · exact panics

theorem job_owes {config : SchedulerConfig} {g g' : Shared} {job : Job} {next : Option Job} {execution : Execution}
    (whole : Whole job)
    (alive : ∃ state, g.registry.get_state job.actor_id = some state ∧ state ≠ .Stopped ∧ state ≠ .Failed)
    (steps : job.step config g execution = (g',next)) : Owes g job g' next := by
  obtain ⟨id,batch,rest,depth,stage⟩ := job
  obtain ⟨state,found,running,working⟩ := alive
  have single := whole.single
  have found : g.registry.get_state id = some state := found
  have executed : ∀ first stage, owed ⟨id,batch,rest,depth,stage⟩ = rest →
      (stage = .panic_mailbox ∨ stage = .panic_clear → False) →
      Owes g ⟨id,batch,rest,depth,.execute first⟩ (g.log_executed id first) (some ⟨id,batch,rest,depth,stage⟩) := by
    intro first stage later unpanicked
    refine goto_owes single (fun panics => (unpanicked panics).elim) (fun m _ => ?_)
    simp only [later]
    simp only [owed,settled,Shared.log_executed,List.count_append,List.count_cons,List.count_nil]
    by_cases same : first = m <;> simp [same]
    omega
  cases job_move steps with
  | absent gone =>
    rw [found] at gone
    simp [running,working] at gone
  | @asleep_control first asleep control =>
    refine goto_owes single (by simp) (fun m spared => ?_)
    have other : first ≠ m := by
      rintro rfl
      rw [spared.plain rfl asleep] at control
      cases control
    simp [owed,other]
  | @asleep_requeue first =>
    refine goto_owes single (by simp) (fun m _ => ?_)
    simp only [owed,settled,Shared.log_requeued,List.count_append,List.count_cons,List.count_nil]
    by_cases same : first = m <;> simp [same]
    omega
  | @handled first change => cases change <;> exact executed first _ rfl (by simp [Stage.after])
  | fails | panics => exact executed _ _ rfl (by simp)
  | panic_assigns => exact goto_owes single (fun _ => rfl) (fun _ _ => rfl)
  | unboxed | releases | fail_unboxed | fail_clears | unwoken | drain_unboxed | drain_ends | pop_ends | requeue_unboxed
    | requeue_pushes => exact finish_owes single rfl (fun _ => rfl)
  | @pops mb queued here received =>
    refine ⟨fun m spared => ?_,?_,?_⟩
    · have other : queued ≠ m := by
        rintro rfl
        exact spared.undrained rfl mb here received
      simp [owed,other]
      rfl
    · rintro _ ⟨⟩
      exact single
    · rintro _ ⟨⟩
      simp
  | batch_abandoned dead =>
    rw [found] at dead
    simp [running,working] at dead
  | batch_done viable done =>
    subst done
    exact ⟨fun _ _ => rfl,by rintro _ ⟨⟩,by rintro _ ⟨⟩⟩
  | batch_next viable more =>
    subst more
    refine ⟨fun _ _ => rfl,?_,?_⟩ <;> rintro _ ⟨⟩
    · exact fun none => absurd (single none) (by simp)
    · simp
  | panic_boxed | panic_unboxed => exact absurd rfl whole.unpanicked.1
  | panic_clears => exact absurd rfl whole.unpanicked.2
  | _ => exact goto_owes single (by simp) (fun _ _ => rfl)

/-! ## The actor stays where it is -/

/-- An actor that is never stopped stays registered, and nobody abandons one of
    its jobs. -/
structure Rooted (a : ActorId) (s : System) : Prop where
  present : (s.shared.registry.mailboxes.lookup a).isSome → (s.shared.registry.by_id.lookup a).isSome
  known : ∀ m, (a,m) ∈ s.shared.history.accepted → (s.shared.registry.mailboxes.lookup a).isSome
  unkilled : ∀ c ∈ s.clients, dying c ≠ some a
  registered : ∀ w ∈ s.workers, ∀ job, holding w = some job → job.actor_id = a → (s.shared.registry.by_id.lookup a).isSome
  whole : ∀ w ∈ s.workers, ∀ job, holding w = some job → job.actor_id = a → Whole job

theorem rooted_init (config : SchedulerConfig) (n : Nat) (a : ActorId) : Rooted a (.init config n) := by
  refine ⟨?_,?_,?_,?_,?_⟩
  · intro some; cases some
  · intro m none; cases none
  · intro c member
    rw [List.eq_of_mem_replicate member]
    simp [dying]
  · intro w member; cases member
  · intro w member; cases member

/-- A state set on a registered actor is the state it has. -/
theorem get_state_after {r : ActorRegistry} {a : ActorId} (registered : (r.by_id.lookup a).isSome) (state : ActorState) :
    ((r.set_state a state).1).get_state a = some state := by
  obtain ⟨entry,found⟩ := Option.isSome_iff_exists.mp registered
  rw [get_state_set,if_pos rfl,ActorRegistry.get_state,found]
  rfl

theorem alive_state {a : ActorId} {s : System} (alive : Alive a s) (registered : (s.shared.registry.by_id.lookup a).isSome) :
    ∃ state, s.shared.registry.get_state a = some state ∧ state ≠ .Stopped ∧ state ≠ .Failed := by
  obtain ⟨entry,found⟩ := Option.isSome_iff_exists.mp registered
  have state : s.shared.registry.get_state a = some entry.state := by simp [ActorRegistry.get_state,found]
  exact ⟨entry.state,state,alive _ state⟩

theorem rooted_worker {s : System} {a : ActorId} {i : Nat} {execution : Execution} {w w' : Worker} {g' : Shared}
    (accepted : Accepted a s) (inv : Rooted a s) (alive : Alive a s)
    (next : Alive a { s with shared := g', workers := s.workers.set i w' }) (found : s.workers[i]? = some w)
    (moves : WorkerMove s.config s.shared w execution g' w') :
    Rooted a { s with shared := g', workers := s.workers.set i w' } := by
  have member := List.mem_of_getElem? found
  have others : ∀ {P : Job → Prop}, (∀ w ∈ s.workers, ∀ job, holding w = some job → job.actor_id = a → P job) →
      (∀ job, holding w' = some job → job.actor_id = a → P job) →
      ∀ other ∈ s.workers.set i w', ∀ job, holding other = some job → job.actor_id = a → P job := by
    intro P before own other listed
    rcases List.mem_or_eq_of_mem_set listed with old | rfl
    · exact before other old
    · exact own
  cases moves with
  | look free still =>
    exact ⟨inv.present,inv.known,inv.unkilled,others inv.registered (by simp [still]),others inv.whole (by simp [still])⟩
  | @take _ lane task rest free head holds =>
    refine ⟨inv.present,inv.known,inv.unkilled,others inv.registered ?_,others inv.whole ?_⟩
    · rintro job same mine
      rw [holds] at same
      cases same
      -- A queued task carries a message that was accepted.
      have first := accepted.queued task (tasks_take head).1 mine task.message List.mem_cons_self
      exact inv.present (inv.known _ first)
    · rintro job same -
      rw [holds] at same
      cases same
      exact ⟨by simp [Job.start],by simp [Job.start]⟩
  | @work _ job _ holds steps =>
    have effect := step_effect steps
    have frame := effect_frame effect
    refine ⟨?_,?_,inv.unkilled,?_,?_⟩
    · dsimp only
      rw [frame.present,effect_present effect]
      exact inv.present
    · dsimp only
      rw [frame.accepted,effect_present effect]
      exact inv.known
    · simp only [frame.present]
      refine others inv.registered (fun job' goes mine => ?_)
      rw [goes] at steps
      exact inv.registered w member job holds ((job_hand steps).1.symm.trans mine)
    · refine others inv.whole (fun job' goes mine => ?_)
      rw [goes] at steps
      have same : job.actor_id = a := (job_hand steps).1.symm.trans mine
      have registered := inv.registered w member job holds same
      have whole := inv.whole w member job holds same
      have owes := job_owes whole (same ▸ alive_state alive registered) steps
      refine ⟨owes.single job' rfl,?_⟩
      -- After a panic the actor would have failed.
      by_contra panicked
      have panics := owes.panics job' rfl (by tauto)
      have failed : g' = s.shared.set_state a .Failed := by
        simp only [Job.step,panics,same] at steps
        exact (Prod.mk.inj steps).1.symm
      exact (next _ (by rw [failed]; exact get_state_after registered .Failed)).2 rfl

theorem rooted_client {s : System} {a : ActorId} {i : Nat} {call : Call} {c c' : Client} {g' : Shared}
    (inv : Rooted a s) (next : Alive a { s with shared := g', clients := s.clients.set i c' })
    (found : s.clients[i]? = some c) (moves : ClientMove s.config s.shared i call c g' c') :
    Rooted a { s with shared := g', clients := s.clients.set i c' } := by
  have own := inv.unkilled c (List.mem_of_getElem? found)
  have others : dying c' ≠ some a → ∀ other ∈ s.clients.set i c', dying other ≠ some a := by
    intro survives other listed
    rcases List.mem_or_eq_of_mem_set listed with old | rfl
    · exact inv.unkilled other old
    · exact survives
  have stated : ∀ id state, ((s.shared.set_state id state).registry.mailboxes.lookup a).isSome =
      (s.shared.registry.mailboxes.lookup a).isSome := by
    intro id state
    rw [Shared.set_state,(set_state_mailboxes s.shared.registry id state).1]
  cases moves with
  | enter =>
    obtain ⟨drawn,same⟩ := enter_frame s.shared call
    have lives : dying (Client.enter s.shared call).2 ≠ some a := by
      unfold Client.enter
      split <;> (try split) <;> simp [dying]
    rw [same]
    exact ⟨inv.present,inv.known,others lives,inv.registered,inv.whole⟩
  | look _ _ _ _ dies =>
    refine ⟨inv.present,inv.known,others ?_,inv.registered,inv.whole⟩
    rcases dies with same | none
    · rw [same]; exact own
    · simp [none]
  | @accept kind target pushed remaining m mb mb' here pushes =>
    refine ⟨?_,?_,others ?_,inv.registered,inv.whole⟩
    · rw [on_mailbox_present]; exact inv.present
    · intro m' listed
      rw [on_mailbox_present]
      rcases List.mem_append.mp listed with old | new
      · exact inv.known m' old
      · simp only [List.mem_singleton,Prod.mk.injEq] at new
        rw [new.1,here]
        rfl
    · cases remaining with
      | nil => cases pushed <;> simp [Client.pushing,dying]
      | cons => simp [Client.pushing,dying]
  | refuse here pushes =>
    refine ⟨?_,?_,others (by simp [dying]),inv.registered,inv.whole⟩
    · rw [on_mailbox_present]; exact inv.present
    · intro m' listed
      rw [on_mailbox_present]
      exact inv.known m' listed
  | enqueue => exact ⟨inv.present,inv.known,others (by simp [dying]),inv.registered,inv.whole⟩
  | @set_state id state =>
    refine ⟨?_,?_,others (by simp [dying]),?_,inv.whole⟩
    · rw [stated,Shared.set_state,present_set_state]; exact inv.present
    · intro m' listed
      rw [stated]
      exact inv.known m' listed
    · intro w member job holds mine
      rw [Shared.set_state,present_set_state]
      exact inv.registered w member job holds mine
  | @kill id registered =>
    have other : id ≠ a := by
      rintro rfl
      have entry : (s.shared.registry.by_id.lookup id).isSome := by simpa [ActorRegistry.get_state] using registered
      exact (next _ (get_state_after entry .Stopped)).1 rfl
    refine ⟨?_,?_,others (by simp [dying,other]),?_,inv.whole⟩
    · rw [stated,Shared.set_state,present_set_state]; exact inv.present
    · intro m' listed
      rw [stated]
      exact inv.known m' listed
    · intro w member job holds mine
      rw [Shared.set_state,present_set_state]
      exact inv.registered w member job holds mine
  | clear =>
    refine ⟨?_,?_,others own,inv.registered,inv.whole⟩
    · rw [on_mailbox_present]; exact inv.present
    · intro m' listed
      rw [on_mailbox_present]
      exact inv.known m' listed
  | @unregister id =>
    have other : a ≠ id := fun same => own (by simp [dying,same])
    have mailboxes := unregister_mailboxes s.shared.registry id
    have entry := unregister_other s.shared.registry other
    refine ⟨?_,?_,others (by simp [dying]),?_,inv.whole⟩
    · simp only [mailboxes,entry]; exact inv.present
    · simp only [mailboxes]; exact inv.known
    · simp only [entry]; exact inv.registered

theorem rooted_step {s s' : System} {label : Label} {a : ActorId} (accepted : Accepted a s) (inv : Rooted a s)
    (alive : Alive a s) (next : Alive a s') (move : Move s label s') : Rooted a s' := by
  cases move with
  | worker found moves => exact rooted_worker accepted inv alive next found moves
  | client found moves => exact rooted_client inv next found moves
  | drop_send found =>
    refine ⟨inv.present,inv.known,?_,inv.registered,inv.whole⟩
    intro c member
    rcases List.mem_or_eq_of_mem_set member with old | rfl
    · exact inv.unkilled c old
    · simp [dying]
  | @spawn id name fresh =>
    rcases register_cases s.shared.registry id name with same | ⟨-,by_name,added⟩
    · rw [same]
      exact inv
    · refine ⟨?_,?_,inv.unkilled,?_,inv.whole⟩
      · simp only [added,Dict.lookup_insert_ite]
        split
        · exact fun _ => rfl
        · exact inv.present
      · intro m listed
        simp only [added,Dict.lookup_insert_ite]
        split
        · rfl
        · exact inv.known m listed
      · intro w member job holds mine
        simp only [added,Dict.lookup_insert_ite]
        split
        · rfl
        · exact inv.registered w member job holds mine
  | @receive id =>
    have kept := on_mailbox_present s.shared id (fun mb => mb.try_recv.1) a
    refine ⟨?_,?_,inv.unkilled,inv.registered,inv.whole⟩
    · rw [kept]; exact inv.present
    · intro m listed
      rw [kept]
      exact inv.known m listed
  | start_worker free =>
    refine ⟨inv.present,inv.known,inv.unkilled,?_,?_⟩
    · intro w member job holds
      rcases List.mem_append.mp member with old | new
      · exact inv.registered w old job holds
      · rw [List.mem_singleton.mp new,free] at holds
        cases holds
    · intro w member job holds
      rcases List.mem_append.mp member with old | new
      · exact inv.whole w old job holds
      · rw [List.mem_singleton.mp new,free] at holds
        cases holds
  | set_running => exact ⟨inv.present,inv.known,inv.unkilled,inv.registered,inv.whole⟩

/-! ## The account of a message -/

/-- How often a message is queued, in the hand of a worker, or settled. -/
def accounted (a : ActorId) (m : Message) (s : System) : Nat :=
  queuedWeight (only m) a s.shared + (s.workers.map (fun w => (owedBy a w).count m)).sum + settled a m s.shared

/-- The step leaves the message to the account. -/
def Spares (a : ActorId) (m : Message) (s : System) : Label → Prop
  | .worker i _ _ => ∀ w job, s.workers[i]? = some w → holding w = some job → job.actor_id = a → Spared m s.shared job
  | _ => True

theorem owedBy_free {a : ActorId} {w : Worker} (free : holding w = none) : owedBy a w = [] := by
  simp [owedBy,free]

/-- What the worker owes after a call of its job. -/
theorem owedBy_next {config : SchedulerConfig} {g g' : Shared} {job : Job} {execution : Execution} {w' : Worker}
    (steps : job.step config g execution = (g',holding w')) (a : ActorId) :
    owedBy a w' = if job.actor_id = a then ((holding w').map owed).getD [] else [] := by
  unfold owedBy
  cases goes : holding w' with
  | none => simp
  | some next =>
    rw [goes] at steps
    simp [(job_hand steps).1]

/-- A job of another actor settles nothing of this one. -/
theorem settled_other {config : SchedulerConfig} {g g' : Shared} {job : Job} {next : Option Job} {execution : Execution}
    {a : ActorId} (steps : job.step config g execution = (g',next)) (other : a ≠ job.actor_id) (m : Message) :
    settled a m g' = settled a m g := by
  have differs : ∀ m', [(job.actor_id,m')].count (a,m) = 0 := by
    intro m'
    simp [Ne.symm other]
  cases step_effect steps with
  | nothing | state | counted | received | cleared | returned => rfl
  | requeued =>
    show _ + (g.history.requeued ++ [(job.actor_id,_)]).count (a,m) = _
    rw [List.count_append,differs]
    rfl
  | executed =>
    show (g.history.executed ++ [(job.actor_id,_)]).count (a,m) + _ = _
    rw [List.count_append,differs]
    rfl

/-- Nothing is taken back once it is settled. -/
theorem settled_grows {id : ActorId} {messages : List Message} {g g' : Shared} (effect : Effect id messages g g')
    (m : Message) : settled id m g ≤ settled id m g' := by
  cases effect with
  | nothing | state | counted | received | cleared | returned => exact Nat.le_refl _
  | requeued =>
    show _ ≤ _ + (g.history.requeued ++ [(id,_)]).count (id,m)
    rw [List.count_append]
    exact Nat.add_le_add_left (Nat.le_add_right _ _) _
  | executed =>
    show _ ≤ (g.history.executed ++ [(id,_)]).count (id,m) + _
    rw [List.count_append]
    exact Nat.add_le_add_right (Nat.le_add_right _ _) _

theorem accounted_worker {s : System} {a : ActorId} {m : Message} {i : Nat} {execution : Execution} {moved : Nat}
    {w w' : Worker} {g' : Shared} (inv : Rooted a s) (alive : Alive a s)
    (spares : Spares a m s (.worker i execution moved)) (found : s.workers[i]? = some w)
    (moves : WorkerMove s.config s.shared w execution g' w') :
    accounted a m { s with shared := g', workers := s.workers.set i w' } = accounted a m s := by
  have member := List.mem_of_getElem? found
  have sums := sum_map_set (fun w => (owedBy a w).count m) found w'
  have goal : ∀ {queues logged}, queuedWeight (only m) a g' = queues → settled a m g' = logged →
      queues + (owedBy a w').count m + logged =
        queuedWeight (only m) a s.shared + (owedBy a w).count m + settled a m s.shared →
      accounted a m { s with shared := g', workers := s.workers.set i w' } = accounted a m s := by
    rintro _ _ rfl rfl same
    show queuedWeight (only m) a g' + ((s.workers.set i w').map (fun w => (owedBy a w).count m)).sum + settled a m g' = _
    unfold accounted
    omega
  cases moves with
  | look free still => exact goal rfl rfl (by rw [owedBy_free free,owedBy_free still])
  | @take _ lane task rest free head holds =>
    have taken : queuedWeight (only m) a
        ({ s.shared with injectors := s.shared.injectors.set lane rest }.log_taken task) + weight (only m) a task =
        queuedWeight (only m) a s.shared := queuedWeight_take _ a head rfl rfl
    have same : settled a m ({ s.shared with injectors := s.shared.injectors.set lane rest }.log_taken task) =
        settled a m s.shared := rfl
    have hands : (owedBy a w').count m = weight (only m) a task := by
      rw [weight_only]
      by_cases mine : task.actor_id = a
      · simp [owedBy,holds,Job.start,owed,mine,Task.messages]
      · simp [owedBy,holds,Job.start,mine]
    refine goal (Nat.eq_sub_of_add_eq taken) same ?_
    rw [hands,owedBy_free free,List.count_nil]
    omega
  | @work _ job _ holds steps =>
    have frame := effect_frame (step_effect steps)
    have queues := queuedWeight_congr (only m) a frame.injectors frame.deques
    by_cases mine : job.actor_id = a
    · subst mine
      have owes := job_owes (inv.whole w member job holds rfl)
        (alive_state alive (inv.registered w member job holds rfl)) steps
      have account := owes.account m (spares w job found holds rfl)
      have before : owedBy job.actor_id w = owed job := by simp [owedBy,holds]
      refine goal queues rfl ?_
      rw [before,owedBy_next steps,if_pos rfl]
      omega
    · have before : owedBy a w = [] := by simp [owedBy,holds,mine]
      have after : owedBy a w' = [] := by rw [owedBy_next steps,if_neg mine]
      exact goal queues (settled_other steps (Ne.symm mine) m) (by rw [before,after])

theorem accounted_step {s s' : System} {label : Label} {a : ActorId} {m : Message} (inv : Rooted a s) (alive : Alive a s)
    (spares : Spares a m s label) (move : Move s label s') :
    accounted a m s' + carried a m s = accounted a m s + carried a m s' := by
  cases move with
  | worker found moves =>
    rw [accounted_worker inv alive spares found moves]
    cases moves with
    | look | take => rfl
    | work _ steps =>
      unfold carried
      simp only [(effect_frame (step_effect steps)).enqueued]
  | @client i call _ c c' _ found moves =>
    have same : ∀ g', queuedWeight (only m) a g' = queuedWeight (only m) a s.shared → settled a m g' = settled a m s.shared →
        g'.history.enqueued = s.shared.history.enqueued →
        accounted a m { s with shared := g', clients := s.clients.set i c' } + carried a m s =
          accounted a m s + carried a m { s with shared := g', clients := s.clients.set i c' } := by
      intro g' queues logged enqueued
      unfold accounted carried
      simp only [queues,logged,enqueued]
    cases moves with
    | enter =>
      obtain ⟨drawn,entered⟩ := enter_frame s.shared call
      rw [entered]
      exact same _ (queuedWeight_congr _ a rfl rfl) rfl rfl
    | @enqueue target first additional =>
      have grown : queuedWeight (only m) a { s.shared with
          injectors := s.shared.injectors.set (lane_of s.config.priority_scheduling (task_of target first additional))
            (s.shared.injectors.get (lane_of s.config.priority_scheduling (task_of target first additional)) ++
              [task_of target first additional])
          history := { s.shared.history with
            enqueued := s.shared.history.enqueued ++ [(i,task_of target first additional)] } } =
          queuedWeight (only m) a s.shared + weight (only m) a (task_of target first additional) :=
        queuedWeight_enqueue _ a rfl rfl
      unfold accounted carried
      simp only [grown,List.map_append,List.map_cons,List.map_nil,List.sum_append,List.sum_cons,List.sum_nil]
      simp only [settled]
      omega
    | look => exact same _ rfl rfl rfl
    | accept | refuse | set_state | kill | clear | unregister => exact same _ (queuedWeight_congr _ a rfl rfl) rfl rfl
  | drop_send | spawn | receive | set_running => rfl
  | @start_worker worker_id w free =>
    have queues : tasks { s.shared with
        deques := s.shared.deques ++ [[]]
        stealers := s.shared.stealers ++ [(worker_id,s.shared.deques.length)] } = tasks s.shared := by
      simp [tasks]
    unfold accounted queuedWeight
    simp only [queues,List.map_append,List.map_cons,List.map_nil,List.sum_append,List.sum_cons,List.sum_nil,
      owedBy_free free,List.count_nil,Nat.add_zero]
    rfl

theorem accounted_start (config : SchedulerConfig) (n : Nat) (a : ActorId) (m : Message) :
    accounted a m (.init config n) = carried a m (.init config n) := by
  simp [accounted,carried,settled,System.init,queuedWeight,tasks]

/-- What is left of the account once nothing is queued or in hand. -/
theorem accounted_idle {a : ActorId} {s : System} (m : Message) (unqueued : ∀ task ∈ tasks s.shared, task.actor_id ≠ a)
    (unheld : ∀ w ∈ s.workers, ∀ job, holding w = some job → job.actor_id ≠ a) :
    accounted a m s = settled a m s.shared := by
  have queues : queuedWeight (only m) a s.shared = 0 := by
    refine sum_map_eq_zero _ _ (fun task member => ?_)
    simp [weight,unqueued task member]
  have workers : (s.workers.map (fun w => (owedBy a w).count m)).sum = 0 := by
    refine sum_map_eq_zero _ _ (fun w member => ?_)
    unfold owedBy
    split
    · next job holds => simp [unheld w member job holds]
    · rfl
  rw [accounted,queues,workers]
  omega

end ActorKit.Outcomes
