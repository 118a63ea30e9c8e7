import ActorKit.Scheduler
import ActorKit.MailboxCalls
import ActorKit.Lib.Transition

/-!
# The moves of a scheduler

One case analysis of `System.step`, shared by every result about runs. The local
queues are always empty, so a worker holds nothing, takes a task from an
injector, or processes the task it holds.
-/

namespace ActorKit.Moves
open ActorKit.mailbox ActorKit.registry ActorKit.queue ActorKit.scheduler ActorKit.MailboxCalls ActorKit.Transition

/-- All queued tasks. -/
def tasks (g : Shared) : List Task :=
  g.injectors.critical ++ g.injectors.high ++ g.injectors.normal ++ g.injectors.low ++ g.injectors.global ++
    g.deques.flatten

/-- The task a worker processes. -/
def holding (w : Worker) : Option Job :=
  match w.pc with
  | .process job => some job
  | _ => none

/-- A worker between two calls of `steal_batch` that carries a task. -/
def carries (w : Worker) : Bool :=
  match w.pc with
  | .push_local .. => true
  | _ => false

/-- What one call of a worker does while the local queues are empty. -/
inductive WorkerMove (config : SchedulerConfig) (g : Shared) (w : Worker) (execution : Execution) :
    Shared → Worker → Prop where
  | look {w' : Worker} (free : holding w = none) (still : holding w' = none) : WorkerMove config g w execution g w'
  | take {w' : Worker} {lane : Lane} {task : Task} {rest : List Task} (free : holding w = none)
      (found : g.injectors.get lane = task :: rest) (holds : holding w' = some (.start task)) (pops : w.pc = .pop lane) :
      WorkerMove config g w execution ({ g with injectors := g.injectors.set lane rest }.log_taken task) w'
  | work {w' : Worker} {job : Job} {g' : Shared} (holds : holding w = some job)
      (steps : job.step config g execution = (g',holding w')) : WorkerMove config g w execution g' w'

/-- Whether the local queues are empty and no worker is filling one. -/
structure NoLocal (s : System) : Prop where
  empty : ∀ d ∈ s.shared.deques, d = []
  carried : ∀ w ∈ s.workers, carries w = false

theorem local_head {deques : List (List Task)} (empty : ∀ d ∈ deques, d = []) {i : Nat} {task : Task}
    {rest : List Task} : deques[i]? ≠ some (task :: rest) := by
  intro found
  have := empty _ (List.mem_of_getElem? found)
  cases this

theorem next_victim_free (max : Nat) (victims : List Nat) (stolen : Nat) (w : Worker) :
    holding { w with pc := .next_victim max victims stolen } = none ∧
      carries { w with pc := .next_victim max victims stolen } = false := by
  cases victims with
  | nil => exact ⟨rfl,rfl⟩
  | cons victim victims =>
    simp only [WorkerPc.next_victim]
    split <;> exact ⟨rfl,rfl⟩

theorem worker_move {config : SchedulerConfig} {g g' : Shared} {w w' : Worker} {execution : Execution} {moved : Nat}
    (empty : ∀ d ∈ g.deques, d = []) (carried : carries w = false)
    (stepped : w.step config g execution moved = some (g',w')) :
    WorkerMove config g w execution g' w' ∧ carries w' = false := by
  obtain ⟨worker_id,deque,iteration,last_version,stealers,index,pc⟩ := w
  cases pc with
  | exited => cases stepped
  | head =>
    simp only [Worker.step] at stepped
    split at stepped
    · cases stepped
      exact ⟨.look rfl rfl,rfl⟩
    · split at stepped <;> cases stepped <;> exact ⟨.look rfl rfl,rfl⟩
  | version =>
    simp only [Worker.step] at stepped
    split at stepped <;> cases stepped <;> exact ⟨.look rfl rfl,rfl⟩
  | refresh current =>
    cases stepped
    exact ⟨.look rfl rfl,rfl⟩
  | pop lane =>
    simp only [Worker.step] at stepped
    split at stepped
    · next task rest found =>
      cases stepped
      exact ⟨.take rfl found rfl rfl,rfl⟩
    · cases stepped
      cases lane <;> exact ⟨.look rfl rfl,rfl⟩
  | pop_local =>
    simp only [Worker.step] at stepped
    split at stepped
    · next found => exact absurd found (local_head empty)
    · cases stepped
      exact ⟨.look rfl rfl,rfl⟩
  | steal victims =>
    simp only [Worker.step] at stepped
    split at stepped
    · cases stepped
      obtain ⟨free,clean⟩ := next_victim_free config.max_steal_batch
        (Worker.victims ⟨worker_id,deque,iteration,last_version,stealers,index,.steal []⟩) 0
        (Worker.rotated ⟨worker_id,deque,iteration,last_version,stealers,index,.steal []⟩)
      exact ⟨.look rfl free,clean⟩
    · split at stepped
      · next found => exact absurd found (local_head empty)
      · cases stepped
        exact ⟨.look rfl rfl,rfl⟩
  | steal_batch victim victims stolen =>
    simp only [Worker.step] at stepped
    split at stepped
    · next found => exact absurd found (local_head empty)
    · cases stepped
      obtain ⟨free,clean⟩ := next_victim_free config.max_steal_batch victims stolen
        ⟨worker_id,deque,iteration,last_version,stealers,index,.steal_batch victim victims stolen⟩
      exact ⟨.look rfl free,clean⟩
  | push_local task victim victims stolen => cases carried
  | process job =>
    simp only [Worker.step] at stepped
    split at stepped
    · next next steps =>
      cases stepped
      exact ⟨.work rfl (by simp only [holding,← steps]),rfl⟩
    · next steps =>
      cases stepped
      exact ⟨.work rfl (by simp only [holding,← steps]),rfl⟩

/-! ## What a call of a client does -/

/-- The messages a send has pushed while its task is not enqueued. -/
def pushedBy (a : ActorId) : Client → List Message
  | .push _ target pushed _ _ => if target = a then pushed else []
  | .enqueue target first additional => if target = a then first :: additional else []
  | _ => []

/-- The messages a send has still to push. -/
def unsent (a : ActorId) : Client → List Message
  | .admit_message _ target messages | .get_mailbox _ target messages | .get_state _ target messages =>
    if target = a then messages else []
  | .push _ target _ message remaining => if target = a then message :: remaining else []
  | _ => []

/-- The state a client is about to give an actor by hand. -/
def meddles : Client → Option (ActorId × ActorState)
  | .set_state id state => some (id,state)
  | .kill id | .kill_mailbox id | .kill_clear id | .kill_unregister id => some (id,.Stopped)
  | _ => none

/-- The actor whose `kill` has already stopped it. -/
def dying : Client → Option ActorId
  | .kill_mailbox id | .kill_clear id | .kill_unregister id => some id
  | _ => none

/-- What one call of client `i` does. -/
inductive ClientMove (config : SchedulerConfig) (g : Shared) (i : Nat) (call : Call) : Client → Shared → Client → Prop where
  | enter : ClientMove config g i call .idle (Client.enter g call).1 (Client.enter g call).2
  | look {c c' : Client} (before : ∀ a, pushedBy a c = []) (after : ∀ a, pushedBy a c' = [])
      (same : ∀ a, unsent a c' = unsent a c ∨ unsent a c' = [])
      (hands : meddles c' = meddles c ∨ meddles c' = none) (dies : dying c' = dying c ∨ dying c' = none) :
      ClientMove config g i call c g c'
  | accept {kind : SendKind} {target : ActorId} {pushed remaining : List Message} {m : Message} {mb mb' : Mailbox}
      (found : g.registry.mailboxes.lookup target = some mb) (pushes : push_one kind mb m = some (mb',true)) :
      ClientMove config g i call (.push kind target pushed m remaining)
        { g.on_mailbox target (fun _ => mb') with
          history := { g.history with accepted := g.history.accepted ++ [(target,m)] } }
        (.pushing kind target (pushed ++ [m]) remaining)
  | refuse {kind : SendKind} {target : ActorId} {pushed remaining : List Message} {m : Message} {mb mb' : Mailbox}
      (found : g.registry.mailboxes.lookup target = some mb) (pushes : push_one kind mb m = some (mb',false)) :
      ClientMove config g i call (.push kind target pushed m remaining) (g.on_mailbox target (fun _ => mb')) .idle
  | enqueue {target : ActorId} {first : Message} {additional : List Message} :
      ClientMove config g i call (.enqueue target first additional)
        { g with
          injectors := g.injectors.set (lane_of config.priority_scheduling (task_of target first additional))
            (g.injectors.get (lane_of config.priority_scheduling (task_of target first additional)) ++
              [task_of target first additional])
          history := { g.history with enqueued := g.history.enqueued ++ [(i,task_of target first additional)] } } .idle
  | set_state {id : ActorId} {state : ActorState} :
      ClientMove config g i call (.set_state id state) (g.set_state id state) .idle
  | kill {id : ActorId} (registered : (g.registry.get_state id).isSome) :
      ClientMove config g i call (.kill id) (g.set_state id .Stopped) (.kill_mailbox id)
  | clear {id : ActorId} :
      ClientMove config g i call (.kill_clear id) (g.on_mailbox id Mailbox.clear) (.kill_unregister id)
  | unregister {id : ActorId} :
      ClientMove config g i call (.kill_unregister id) { g with registry := (g.registry.unregister id).1 } .idle

/-- A send that has pushed nothing yet. -/
theorem pushing_first (kind : SendKind) (target : ActorId) (messages : List Message) (a : ActorId) :
    pushedBy a (.pushing kind target [] messages) = [] ∧
      unsent a (.pushing kind target [] messages) = (if target = a then messages else []) ∧
      meddles (.pushing kind target [] messages) = none ∧ dying (.pushing kind target [] messages) = none := by
  cases messages with
  | nil => simp [Client.pushing,pushedBy,unsent,meddles,dying]
  | cons => simp [Client.pushing,pushedBy,unsent,meddles,dying]

theorem client_move {config : SchedulerConfig} {g g' : Shared} {i : Nat} {call : Call} {admitted : Bool} {c c' : Client}
    (steps : c.step config g i call admitted = some (g',c')) : ClientMove config g i call c g' c' := by
  cases c with
  | idle =>
    have entered : Client.enter g call = (g',c') := Option.some.inj steps
    have move : ClientMove config g i call .idle (Client.enter g call).1 (Client.enter g call).2 := .enter
    rw [entered] at move
    exact move
  | admit_message kind target messages =>
    cases steps
    cases admitted
    · exact .look (fun _ => rfl) (fun _ => rfl) (fun _ => .inr rfl) (.inr rfl) (.inr rfl)
    · exact .look (fun _ => rfl) (fun _ => rfl) (fun _ => .inl rfl) (.inr rfl) (.inr rfl)
  | get_mailbox kind target messages =>
    have first := pushing_first kind target messages
    simp only [Client.step] at steps
    split at steps
    · cases steps
      exact .look (fun _ => rfl) (fun _ => rfl) (fun _ => .inr rfl) (.inr rfl) (.inr rfl)
    · split at steps <;> cases steps
      · exact .look (fun _ => rfl) (fun _ => rfl) (fun _ => .inl rfl) (.inr rfl) (.inr rfl)
      · exact .look (fun _ => rfl) (fun _ => rfl) (fun _ => .inl rfl) (.inr rfl) (.inr rfl)
      · exact .look (fun _ => rfl) (fun a => (first a).1) (fun a => .inl (first a).2.1)
          (.inr (first target).2.2.1) (.inr (first target).2.2.2)
  | get_state kind target messages =>
    have first := pushing_first kind target messages
    simp only [Client.step] at steps
    split at steps <;> cases steps
    · exact .look (fun _ => rfl) (fun _ => rfl) (fun _ => .inr rfl) (.inr rfl) (.inr rfl)
    · exact .look (fun _ => rfl) (fun _ => rfl) (fun _ => .inr rfl) (.inr rfl) (.inr rfl)
    all_goals
      exact .look (fun _ => rfl) (fun a => (first a).1) (fun a => .inl (first a).2.1)
        (.inr (first target).2.2.1) (.inr (first target).2.2.2)
  | push kind target pushed message remaining =>
    simp only [Client.step] at steps
    split at steps
    · cases steps
    · next mb found =>
      split at steps
      · cases steps
      · next mb' pushes =>
        cases steps
        exact .refuse found pushes
      · next mb' pushes =>
        cases steps
        exact .accept found pushes
  | enqueue target first additional =>
    cases steps
    exact .enqueue
  | set_state id state =>
    cases steps
    exact .set_state
  | kill id =>
    simp only [Client.step] at steps
    split at steps <;> cases steps
    · next found => exact .kill (by rw [found]; rfl)
    · exact .look (fun _ => rfl) (fun _ => rfl) (fun _ => .inr rfl) (.inr rfl) (.inr rfl)
  | kill_mailbox id =>
    simp only [Client.step] at steps
    split at steps <;> cases steps <;> exact .look (fun _ => rfl) (fun _ => rfl) (fun _ => .inr rfl) (.inl rfl) (.inl rfl)
  | kill_clear id =>
    cases steps
    exact .clear
  | kill_unregister id =>
    cases steps
    exact .unregister

/-- What a step of the system does. -/
inductive Move (s : System) : Label → System → Prop where
  | worker {i : Nat} {execution : Execution} {moved : Nat} {w w' : Worker} {g' : Shared}
      (found : s.workers[i]? = some w) (moves : WorkerMove s.config s.shared w execution g' w') :
      Move s (.worker i execution moved) { s with shared := g', workers := s.workers.set i w' }
  | client {i : Nat} {call : Call} {admitted : Bool} {c c' : Client} {g' : Shared} (found : s.clients[i]? = some c)
      (moves : ClientMove s.config s.shared i call c g' c') :
      Move s (.client i call admitted) { s with shared := g', clients := s.clients.set i c' }
  | drop_send {i : Nat} {kind : SendKind} {target : ActorId} {pushed remaining : List Message} {message : Message}
      (found : s.clients[i]? = some (.push kind target pushed message remaining)) :
      Move s (.drop_send i) { s with clients := s.clients.set i .idle }
  | spawn {id : ActorId} {name : Option String} (fresh : s.shared.registry.mailboxes.lookup id = none) :
      Move s (.spawn id name)
        { s with shared := { s.shared with registry := (s.shared.registry.register_named id name).1 } }
  | receive {id : ActorId} :
      Move s (.receive id) { s with shared := s.shared.on_mailbox id (fun mb => mb.try_recv.1) }
  | start_worker {worker_id : Nat} {w : Worker} (free : holding w = none) :
      Move s (.start_worker worker_id) { s with
        shared := { s.shared with
          deques := s.shared.deques ++ [[]]
          stealers := s.shared.stealers ++ [(worker_id,s.shared.deques.length)] }
        workers := s.workers ++ [w] }
  | set_running {running : Bool} :
      Move s (.set_running running) { s with shared := { s.shared with running } }

/-! ## What a call of a job changes -/

/-- The messages a job still has in hand. -/
def hand (job : Job) : List Message :=
  match job.stage with
  | .get_state m | .execute m | .control m | .requeue m | .requeue_push m => m :: job.rest
  | _ => job.rest

/-- The calls inside `process_task_safe`, one case for each way a call can go. -/
inductive JobMove (config : SchedulerConfig) (g : Shared) (execution : Execution) (id : ActorId) (batch : Bool)
    (rest : List Message) (depth : Nat) : Stage → Shared → Option Job → Prop where
  | awake {m : Message} (active : g.registry.get_state id = some .Running ∨ g.registry.get_state id = some .Creating) :
      JobMove config g execution id batch rest depth (.get_state m) g (some ⟨id,batch,rest,depth,.execute m⟩)
  | asleep_control {m : Message} (asleep : g.registry.get_state id = some .Suspended) (control : is_control m.payload = true) :
      JobMove config g execution id batch rest depth (.get_state m) g (some ⟨id,batch,rest,depth,.control m⟩)
  | asleep_requeue {m : Message} (asleep : g.registry.get_state id = some .Suspended) (plain : is_control m.payload = false) :
      JobMove config g execution id batch rest depth (.get_state m) (g.log_requeued id m)
        (some ⟨id,batch,rest,depth,.requeue m⟩)
  | absent {m : Message} (gone : g.registry.get_state id = some .Stopped ∨ g.registry.get_state id = some .Failed ∨
        g.registry.get_state id = none) :
      JobMove config g execution id batch rest depth (.get_state m) g (Job.finish ⟨id,batch,rest,depth,.get_state m⟩)
  | handled {m : Message} {change : Option ActorState} (changes : change = state_change m.payload ∨
        config.executor = true ∧ execution = .returns .Success ∧ change = success_change m.payload) :
      JobMove config g execution id batch rest depth (.execute m) (g.log_executed id m)
        (some ⟨id,batch,rest,depth,.after change⟩)
  | fails {m : Message} (installed : config.executor = true)
      (answer : execution = .returns .FuelExhausted ∨ execution = .returns .Failed) :
      JobMove config g execution id batch rest depth (.execute m) (g.log_executed id m) (some ⟨id,batch,rest,depth,.fail⟩)
  | panics {m : Message} (installed : config.executor = true) (answer : execution = .panics) :
      JobMove config g execution id batch rest depth (.execute m) (g.log_executed id m) (some ⟨id,batch,rest,depth,.panic⟩)
  | assigns {state : ActorState} :
      JobMove config g execution id batch rest depth (.set_state state) (g.set_state id state)
        (some ⟨id,batch,rest,depth,.record⟩)
  | records :
      JobMove config g execution id batch rest depth .record { g with registry := g.registry.record_processed id }
        (some ⟨id,batch,rest,depth,.get_mailbox⟩)
  | boxed {mb : Mailbox} (found : g.registry.get_mailbox id = some mb) :
      JobMove config g execution id batch rest depth .get_mailbox g (some ⟨id,batch,rest,depth,.release⟩)
  | unboxed (missing : g.registry.get_mailbox id = none) :
      JobMove config g execution id batch rest depth .get_mailbox g (Job.finish ⟨id,batch,rest,depth,.get_mailbox⟩)
  | releases :
      JobMove config g execution id batch rest depth .release (g.on_mailbox id (fun mb => mb.try_recv.1))
        (Job.finish ⟨id,batch,rest,depth,.release⟩)
  | fail_assigns :
      JobMove config g execution id batch rest depth .fail (g.set_state id .Failed)
        (some ⟨id,batch,rest,depth,.fail_mailbox⟩)
  | fail_boxed {mb : Mailbox} (found : g.registry.get_mailbox id = some mb) :
      JobMove config g execution id batch rest depth .fail_mailbox g (some ⟨id,batch,rest,depth,.fail_clear⟩)
  | fail_unboxed (missing : g.registry.get_mailbox id = none) :
      JobMove config g execution id batch rest depth .fail_mailbox g (Job.finish ⟨id,batch,rest,depth,.fail_mailbox⟩)
  | fail_clears :
      JobMove config g execution id batch rest depth .fail_clear (g.on_mailbox id Mailbox.clear)
        (Job.finish ⟨id,batch,rest,depth,.fail_clear⟩)
  | control_assigns {m : Message} {state : ActorState} (changes : state_change m.payload = some state) :
      JobMove config g execution id batch rest depth (.control m) (g.set_state id state)
        (some ⟨id,batch,rest,depth,.control_mailbox⟩)
  | control_ignored {m : Message} (unchanged : state_change m.payload = none) :
      JobMove config g execution id batch rest depth (.control m) g (some ⟨id,batch,rest,depth,.control_mailbox⟩)
  | control_boxed {mb : Mailbox} (found : g.registry.get_mailbox id = some mb) :
      JobMove config g execution id batch rest depth .control_mailbox g (some ⟨id,batch,rest,depth,.control_release⟩)
  | control_unboxed (missing : g.registry.get_mailbox id = none) :
      JobMove config g execution id batch rest depth .control_mailbox g (some ⟨id,batch,rest,depth,.control_check⟩)
  | control_releases :
      JobMove config g execution id batch rest depth .control_release (g.on_mailbox id (fun mb => mb.try_recv.1))
        (some ⟨id,batch,rest,depth,.control_check⟩)
  | woken (active : g.registry.get_state id = some .Running ∨ g.registry.get_state id = some .Creating) :
      JobMove config g execution id batch rest depth .control_check g (some ⟨id,batch,rest,depth,.drain⟩)
  | unwoken (inactive : g.registry.get_state id ≠ some .Running ∧ g.registry.get_state id ≠ some .Creating) :
      JobMove config g execution id batch rest depth .control_check g (Job.finish ⟨id,batch,rest,depth,.control_check⟩)
  | drain_boxed {mb : Mailbox} (found : g.registry.get_mailbox id = some mb) :
      JobMove config g execution id batch rest depth .drain g (some ⟨id,batch,rest,depth,.drain_empty⟩)
  | drain_unboxed (missing : g.registry.get_mailbox id = none) :
      JobMove config g execution id batch rest depth .drain g (Job.finish ⟨id,batch,rest,depth,.drain⟩)
  | drain_goes {mb : Mailbox} (found : g.registry.mailboxes.lookup id = some mb) (filled : mb.is_empty = false) :
      JobMove config g execution id batch rest depth .drain_empty g (some ⟨id,batch,rest,depth,.drain_pop⟩)
  | drain_ends (nothing : ∀ mb, g.registry.mailboxes.lookup id = some mb → mb.is_empty = true) :
      JobMove config g execution id batch rest depth .drain_empty g (Job.finish ⟨id,batch,rest,depth,.drain_empty⟩)
  | pops {mb : Mailbox} {queued : Message} (found : g.registry.mailboxes.lookup id = some mb)
      (received : mb.try_recv.2 = some queued) :
      JobMove config g execution id batch rest depth .drain_pop (g.on_mailbox id (fun mb => mb.try_recv.1))
        (some ⟨id,batch,rest,depth + 1,.get_state queued⟩)
  | pop_ends (nothing : ∀ mb, g.registry.mailboxes.lookup id = some mb → mb.try_recv.2 = none) :
      JobMove config g execution id batch rest depth .drain_pop g (Job.finish ⟨id,batch,rest,depth,.drain_pop⟩)
  | requeue_boxed {m : Message} {mb : Mailbox} (found : g.registry.get_mailbox id = some mb) :
      JobMove config g execution id batch rest depth (.requeue m) g (some ⟨id,batch,rest,depth,.requeue_push m⟩)
  | requeue_unboxed {m : Message} (missing : g.registry.get_mailbox id = none) :
      JobMove config g execution id batch rest depth (.requeue m) g (Job.finish ⟨id,batch,rest,depth,.requeue m⟩)
  | requeue_pushes {m : Message} :
      JobMove config g execution id batch rest depth (.requeue_push m) (g.on_mailbox id (fun mb => (mb.try_send m).1))
        (Job.finish ⟨id,batch,rest,depth,.requeue_push m⟩)
  | batch_abandoned (dead : g.registry.get_state id = some .Failed ∨ g.registry.get_state id = some .Stopped) :
      JobMove config g execution id batch rest depth .check g none
  | batch_done (viable : g.registry.get_state id ≠ some .Failed ∧ g.registry.get_state id ≠ some .Stopped)
      (done : rest = []) : JobMove config g execution id batch rest depth .check g none
  | batch_next {m : Message} {later : List Message}
      (viable : g.registry.get_state id ≠ some .Failed ∧ g.registry.get_state id ≠ some .Stopped)
      (more : rest = m :: later) :
      JobMove config g execution id batch rest depth .check g (some ⟨id,batch,later,depth,.get_state m⟩)
  | panic_assigns :
      JobMove config g execution id batch rest depth .panic (g.set_state id .Failed)
        (some ⟨id,batch,rest,depth,.panic_mailbox⟩)
  | panic_boxed {mb : Mailbox} (found : g.registry.get_mailbox id = some mb) :
      JobMove config g execution id batch rest depth .panic_mailbox g (some ⟨id,batch,rest,depth,.panic_clear⟩)
  | panic_unboxed (missing : g.registry.get_mailbox id = none) :
      JobMove config g execution id batch rest depth .panic_mailbox g none
  | panic_clears :
      JobMove config g execution id batch rest depth .panic_clear (g.on_mailbox id Mailbox.clear) none

theorem job_move {config : SchedulerConfig} {g g' : Shared} {id : ActorId} {batch : Bool} {rest : List Message} {depth : Nat}
    {stage : Stage} {execution : Execution} {next : Option Job}
    (steps : Job.step config g ⟨id,batch,rest,depth,stage⟩ execution = (g',next)) :
    JobMove config g execution id batch rest depth stage g' next := by
  cases stage with
  | get_state m =>
    simp only [Job.step] at steps
    split at steps
    · next state => cases steps; exact .awake (.inl state)
    · next state => cases steps; exact .awake (.inr state)
    · next state =>
      split at steps
      · next control => cases steps; exact .asleep_control state control
      · next plain => cases steps; exact .asleep_requeue state (by simpa using plain)
    · next state => cases steps; exact .absent (.inl state)
    · next state => cases steps; exact .absent (.inr (.inl state))
    · next state => cases steps; exact .absent (.inr (.inr state))
  | execute m =>
    simp only [Job.step] at steps
    split at steps
    · next installed =>
      split at steps <;> cases steps
      · exact .handled (.inr ⟨installed,rfl,rfl⟩)
      · exact .handled (.inl rfl)
      · exact .fails installed (.inl rfl)
      · exact .fails installed (.inr rfl)
      · exact .panics installed rfl
    · cases steps
      exact .handled (.inl rfl)
  | set_state state => cases steps; exact .assigns
  | record => cases steps; exact .records
  | get_mailbox =>
    simp only [Job.step] at steps
    split at steps
    · next mb found => cases steps; exact .boxed found
    · next none => cases steps; exact .unboxed none
  | release => cases steps; exact .releases
  | fail => cases steps; exact .fail_assigns
  | fail_mailbox =>
    simp only [Job.step] at steps
    split at steps
    · next mb found => cases steps; exact .fail_boxed found
    · next none => cases steps; exact .fail_unboxed none
  | fail_clear => cases steps; exact .fail_clears
  | control m =>
    simp only [Job.step] at steps
    split at steps
    · next state changes => cases steps; exact .control_assigns changes
    · next unchanged => cases steps; exact .control_ignored unchanged
  | control_mailbox =>
    simp only [Job.step] at steps
    split at steps
    · next mb found => cases steps; exact .control_boxed found
    · next none => cases steps; exact .control_unboxed none
  | control_release => cases steps; exact .control_releases
  | control_check =>
    simp only [Job.step] at steps
    split at steps
    · next state => cases steps; exact .woken (.inl state)
    · next state => cases steps; exact .woken (.inr state)
    all_goals
      next state =>
      cases steps
      exact .unwoken (by simp [state])
  | drain =>
    simp only [Job.step] at steps
    split at steps
    · next mb found => cases steps; exact .drain_boxed found
    · next none => cases steps; exact .drain_unboxed none
  | drain_empty =>
    simp only [Job.step] at steps
    split at steps
    · next mb found =>
      split at steps
      · next empty => cases steps; exact .drain_ends (by simpa [found] using empty)
      · next filled => cases steps; exact .drain_goes found (by simpa using filled)
    · next none => cases steps; exact .drain_ends (by simp [none])
  | drain_pop =>
    simp only [Job.step] at steps
    split at steps
    · next mb found =>
      split at steps
      · next queued received => cases steps; exact .pops found received
      · next nothing => cases steps; exact .pop_ends (by simpa [found] using nothing)
    · next none => cases steps; exact .pop_ends (by simp [none])
  | requeue m =>
    simp only [Job.step] at steps
    split at steps
    · next mb found => cases steps; exact .requeue_boxed found
    · next none => cases steps; exact .requeue_unboxed none
  | requeue_push m => cases steps; exact .requeue_pushes
  | check =>
    simp only [Job.step] at steps
    split at steps
    · next state => cases steps; exact .batch_abandoned (.inl state)
    · next state => cases steps; exact .batch_abandoned (.inr state)
    all_goals
      next state =>
      split at steps <;> cases steps
      · exact .batch_done (by simp [state]) rfl
      · exact .batch_next (by simp [state]) rfl
  | panic => cases steps; exact .panic_assigns
  | panic_mailbox =>
    simp only [Job.step] at steps
    split at steps
    · next mb found => cases steps; exact .panic_boxed found
    · next none => cases steps; exact .panic_unboxed none
  | panic_clear => cases steps; exact .panic_clears

/-- What one call inside `process_task_safe` does to the shared state. -/
inductive Effect (id : ActorId) (messages : List Message) (g : Shared) : Shared → Prop where
  | nothing : Effect id messages g g
  | requeued {m : Message} (inHand : m ∈ messages) (asleep : g.registry.get_state id = some .Suspended) :
      Effect id messages g (g.log_requeued id m)
  | executed {m : Message} (inHand : m ∈ messages) : Effect id messages g (g.log_executed id m)
  | state {state : ActorState} : Effect id messages g (g.set_state id state)
  | counted : Effect id messages g { g with registry := g.registry.record_processed id }
  | received : Effect id messages g (g.on_mailbox id (fun mb => mb.try_recv.1))
  | cleared : Effect id messages g (g.on_mailbox id Mailbox.clear)
  | returned {m : Message} (inHand : m ∈ messages) :
      Effect id messages g (g.on_mailbox id (fun mb => (mb.try_send m).1))

theorem step_effect {config : SchedulerConfig} {g g' : Shared} {job : Job} {execution : Execution} {next : Option Job}
    (steps : job.step config g execution = (g',next)) : Effect job.actor_id (hand job) g g' := by
  obtain ⟨id,batch,rest,depth,stage⟩ := job
  cases job_move steps with
  | asleep_requeue asleep => exact .requeued List.mem_cons_self asleep
  | handled | fails | panics => exact .executed List.mem_cons_self
  | assigns | fail_assigns | control_assigns | panic_assigns => exact .state
  | records => exact .counted
  | releases | control_releases | pops => exact .received
  | fail_clears | panic_clears => exact .cleared
  | requeue_pushes => exact .returned List.mem_cons_self
  | _ => exact .nothing

/-- A call of a job leaves the queues, the other actors and most of the history
    alone. -/
structure Frame (id : ActorId) (g g' : Shared) : Prop where
  injectors : g'.injectors = g.injectors
  deques : g'.deques = g.deques
  config : g'.registry.mailbox_config = g.registry.mailbox_config
  uids : g'.history.next_uid = g.history.next_uid
  accepted : g'.history.accepted = g.history.accepted
  enqueued : g'.history.enqueued = g.history.enqueued
  taken : g'.history.taken = g.history.taken
  present : ∀ k, (g'.registry.by_id.lookup k).isSome = (g.registry.by_id.lookup k).isSome
  states : ∀ k, k ≠ id → g'.registry.get_state k = g.registry.get_state k
  mailboxes : ∀ k, k ≠ id → g'.registry.mailboxes.lookup k = g.registry.mailboxes.lookup k

theorem present_set_state (r : ActorRegistry) (id : ActorId) (state : ActorState) (k : ActorId) :
    (((r.set_state id state).1).by_id.lookup k).isSome = (r.by_id.lookup k).isSome := by
  unfold ActorRegistry.set_state
  split
  · simp only [Dict.lookup_modify]
    split <;> simp
  · rfl

theorem set_state_mailboxes (r : ActorRegistry) (id : ActorId) (state : ActorState) :
    ((r.set_state id state).1).mailboxes = r.mailboxes ∧
      ((r.set_state id state).1).mailbox_config = r.mailbox_config := by
  unfold ActorRegistry.set_state
  split <;> exact ⟨rfl,rfl⟩

theorem get_state_set (r : ActorRegistry) (id : ActorId) (state : ActorState) (k : ActorId) :
    ((r.set_state id state).1).get_state k =
      if k = id then (r.get_state k).map (fun _ => state) else r.get_state k := by
  unfold ActorRegistry.set_state ActorRegistry.get_state
  split
  · simp only [Dict.lookup_modify]
    split <;> simp [Function.comp_def]
  · next absent =>
    split
    · next same =>
      subst same
      simp [absent]
    · rfl

theorem effect_frame {id : ActorId} {messages : List Message} {g g' : Shared} (effect : Effect id messages g g') :
    Frame id g g' := by
  have received : ∀ f : Mailbox → Mailbox, Frame id g (g.on_mailbox id f) := by
    intro f
    refine ⟨rfl,rfl,rfl,rfl,rfl,rfl,rfl,fun _ => rfl,fun _ _ => rfl,fun k other => ?_⟩
    simp [Shared.on_mailbox,ActorRegistry.on_mailbox,other]
  cases effect with
  | nothing | requeued | executed =>
    exact ⟨rfl,rfl,rfl,rfl,rfl,rfl,rfl,fun _ => rfl,fun _ _ => rfl,fun _ _ => rfl⟩
  | @state state =>
    obtain ⟨same,config⟩ := set_state_mailboxes g.registry id state
    refine ⟨rfl,rfl,config,rfl,rfl,rfl,rfl,present_set_state g.registry id state,fun k other => ?_,fun k _ => ?_⟩
    · exact (get_state_set g.registry id state k).trans (if_neg other)
    · exact congrArg (AList.lookup k) same
  | counted =>
    refine ⟨rfl,rfl,rfl,rfl,rfl,rfl,rfl,fun k => ?_,fun k other => ?_,fun _ _ => rfl⟩
    · simp only [ActorRegistry.record_processed,Dict.lookup_modify]
      split <;> simp
    · simp [ActorRegistry.record_processed,ActorRegistry.get_state,other]
  | received | cleared | returned => exact received _

/-! ## The facts of every run -/

/-- Every mailbox has sound counters, and every registered actor has one. -/
structure Kept (config : MailboxConfig) (r : ActorRegistry) : Prop where
  sameConfig : r.mailbox_config = config
  sound : ∀ id mb, r.mailboxes.lookup id = some mb → Sound config mb
  registered : ∀ id, (r.by_id.lookup id).isSome → (r.mailboxes.lookup id).isSome

/-- What holds of a scheduler in every run. -/
structure Sane (s : System) : Prop extends NoLocal s where
  registry : Kept s.config.mailbox_config s.shared.registry

/-- Entering a call only draws `uid`s. -/
theorem enter_frame (g : Shared) (call : Call) :
    ∃ next, (Client.enter g call).1 = { g with history := { g.history with next_uid := next } } := by
  unfold Client.enter
  split <;> (try split) <;> exact ⟨_,rfl⟩

theorem step_move {s s' : System} {label : Label} (noLocal : NoLocal s) (stepped : s.step label = some s') :
    Move s label s' ∧ NoLocal s' := by
  cases label with
  | worker i execution moved =>
    obtain ⟨w,found,rest⟩ := Option.bind_eq_some_iff.mp stepped
    obtain ⟨⟨g',w'⟩,moved,same⟩ := Option.bind_eq_some_iff.mp rest
    cases same
    obtain ⟨move,clean⟩ := worker_move noLocal.empty (noLocal.carried w (List.mem_of_getElem? found)) moved
    refine ⟨.worker found move,?_,?_⟩
    · cases move with
      | look | take => exact noLocal.empty
      | @work _ job _ holds steps =>
        have frame := effect_frame (step_effect steps)
        intro d member
        exact noLocal.empty d (frame.deques ▸ member)
    · intro other member
      rcases List.mem_or_eq_of_mem_set member with old | rfl
      · exact noLocal.carried other old
      · exact clean
  | client i call admitted =>
    obtain ⟨c,found,rest⟩ := Option.bind_eq_some_iff.mp stepped
    obtain ⟨⟨g',c'⟩,moved,same⟩ := Option.bind_eq_some_iff.mp rest
    cases same
    have move := client_move moved
    refine ⟨.client found move,?_,noLocal.carried⟩
    cases move with
    | enter =>
      obtain ⟨next,same⟩ := enter_frame s.shared call
      rw [same]
      exact noLocal.empty
    | _ => exact noLocal.empty
  | drop_send i =>
    simp only [System.step] at stepped
    split at stepped
    · cases stepped
      exact ⟨.drop_send (by assumption),noLocal.empty,noLocal.carried⟩
    · cases stepped
      exact ⟨.drop_send (by assumption),noLocal.empty,noLocal.carried⟩
    · cases stepped
  | spawn id name =>
    simp only [System.step] at stepped
    split at stepped
    · cases stepped
    · next fresh =>
      cases stepped
      exact ⟨.spawn (by simpa using fresh),noLocal.empty,noLocal.carried⟩
  | receive id =>
    cases stepped
    exact ⟨.receive,noLocal.empty,noLocal.carried⟩
  | start_worker worker_id =>
    cases stepped
    refine ⟨.start_worker rfl,?_,?_⟩
    · intro d member
      rcases List.mem_append.mp member with old | new
      · exact noLocal.empty d old
      · exact List.mem_singleton.mp new
    · intro w member
      rcases List.mem_append.mp member with old | new
      · exact noLocal.carried w old
      · rw [List.mem_singleton.mp new]; rfl
  | set_running running =>
    cases stepped
    exact ⟨.set_running,noLocal.empty,noLocal.carried⟩

/-- A registration changes nothing, or adds the actor and its mailbox. -/
theorem register_cases (r : ActorRegistry) (id : ActorId) (name : Option String) :
    (r.register_named id name).1 = r ∨ (r.by_id.lookup id = none ∧
      ∃ by_name, (r.register_named id name).1 = { r with
        by_id := r.by_id.insert id { name }
        by_name
        mailboxes := r.mailboxes.insert id (.new id r.mailbox_config) }) := by
  unfold ActorRegistry.register_named
  by_cases present : (r.by_id.lookup id).isSome = true
  · exact .inl (by simp [present])
  · have absent : r.by_id.lookup id = none := by simpa using present
    simp only [present,if_false,Bool.false_eq_true]
    cases name with
    | none => exact .inr ⟨absent,_,rfl⟩
    | some actor_name =>
      by_cases taken : (r.by_name.lookup actor_name).isSome = true
      · exact .inl (by simp [taken])
      · refine .inr ⟨absent,r.by_name.insert actor_name id,?_⟩
        simp only [taken,if_false,Bool.false_eq_true]

theorem sane_init (config : SchedulerConfig) (n : Nat) : Sane (.init config n) := by
  refine ⟨⟨?_,?_⟩,⟨rfl,?_,?_⟩⟩
  · intro d member; cases member
  · intro w member; cases member
  · intro id mb found; cases found
  · intro id present; cases present

/-- One mailbox rewritten by a call that keeps its counters sound. -/
theorem Kept.on_mailbox {config : MailboxConfig} {r : ActorRegistry} (kept : Kept config r) (id : ActorId)
    (f : Mailbox → Mailbox) (keeps : ∀ mb, r.mailboxes.lookup id = some mb → Sound config (f mb)) :
    Kept config (r.on_mailbox id f) := by
  refine ⟨kept.sameConfig,fun k mb found => ?_,fun k present => ?_⟩
  · simp only [ActorRegistry.on_mailbox,Dict.lookup_modify] at found
    split at found
    · next same =>
      subst same
      obtain ⟨before,here,rfl⟩ := Option.map_eq_some_iff.mp found
      exact keeps before here
    · exact kept.sound k mb found
  · simp only [ActorRegistry.on_mailbox,Dict.lookup_modify]
    have before := kept.registered k present
    split <;> simpa using before

/-- What a push by a send leaves in the mailbox. -/
theorem push_one_sound {config : MailboxConfig} (fits : config.capacity < 2 ^ 64) {mb mb' : Mailbox}
    (sound : Sound config mb) {kind : SendKind} {m : Message} {accepted : Bool}
    (pushes : push_one kind mb m = some (mb',accepted)) :
    Sound config mb' ∧ (accepted = true → (contents mb').Perm (m :: contents mb)) ∧
      (accepted = false → mb' = mb ∧ kind = .try_send ∧ mb.permits = 0) := by
  have blocking : ∀ result, mb.send m = some (mb',result) →
      result = .ok () ∧ Sound config mb' ∧ (contents mb').Perm (m :: contents mb) :=
    fun result sent => (send_stores fits sound m).2 mb' result sent
  cases kind with
  | try_send =>
    simp only [push_one] at pushes
    rcases try_send_stores fits sound m with ⟨full,refused⟩ | ⟨after,stored,kept,perm⟩
    · simp only [refused,Option.some.injEq,Prod.mk.injEq] at pushes
      obtain ⟨rfl,rfl⟩ := pushes
      exact ⟨sound,by simp,fun _ => ⟨rfl,rfl,full⟩⟩
    · simp only [stored,Option.some.injEq,Prod.mk.injEq] at pushes
      obtain ⟨rfl,rfl⟩ := pushes
      exact ⟨kept,fun _ => perm,by simp⟩
  | send | send_batch =>
    simp only [push_one] at pushes
    split at pushes
    · next sent =>
      cases pushes
      obtain ⟨-,kept,perm⟩ := blocking _ sent
      exact ⟨kept,fun _ => perm,by simp⟩
    · next sent =>
      cases pushes
      obtain ⟨failed,-⟩ := blocking _ sent
      cases failed
    · cases pushes

theorem Kept.effect {config : MailboxConfig} (fits : config.capacity < 2 ^ 64) {id : ActorId} {messages : List Message}
    {g g' : Shared} (kept : Kept config g.registry) (effect : Effect id messages g g') : Kept config g'.registry := by
  cases effect with
  | nothing | requeued | executed => exact kept
  | @state state =>
    obtain ⟨same,sameConfig⟩ := set_state_mailboxes g.registry id state
    refine ⟨sameConfig.trans kept.sameConfig,fun k mb found => kept.sound k mb ?_,fun k present => ?_⟩
    · rw [← same]; exact found
    · rw [Shared.set_state,same]
      rw [Shared.set_state,present_set_state] at present
      exact kept.registered k present
  | counted =>
    refine ⟨kept.sameConfig,kept.sound,fun k present => kept.registered k ?_⟩
    simp only [ActorRegistry.record_processed,Dict.lookup_modify] at present
    split at present
    · simpa using present
    · exact present
  | received => exact kept.on_mailbox id _ (fun mb here => try_recv_sound fits (kept.sound id mb here))
  | cleared => exact kept.on_mailbox id _ (fun mb here => (clear_sound fits (kept.sound id mb here)).1)
  | returned => exact kept.on_mailbox id _ (fun mb here => try_send_sound fits (kept.sound id mb here) _)

/-- Rewriting a mailbox neither creates nor drops one. -/
theorem on_mailbox_present (g : Shared) (id : ActorId) (f : Mailbox → Mailbox) (k : ActorId) :
    ((g.on_mailbox id f).registry.mailboxes.lookup k).isSome = (g.registry.mailboxes.lookup k).isSome := by
  simp only [Shared.on_mailbox,ActorRegistry.on_mailbox,Dict.lookup_modify]
  split <;> simp

/-- No call of a job creates or drops a mailbox. -/
theorem effect_present {id : ActorId} {messages : List Message} {g g' : Shared} (effect : Effect id messages g g')
    (k : ActorId) : (g'.registry.mailboxes.lookup k).isSome = (g.registry.mailboxes.lookup k).isSome := by
  cases effect with
  | nothing | requeued | executed | counted => rfl
  | @state state => exact congrArg (fun d => (AList.lookup k d).isSome) (set_state_mailboxes g.registry id state).1
  | received | cleared | returned => exact on_mailbox_present g id _ k

theorem Kept.register {config : MailboxConfig} {r : ActorRegistry} (kept : Kept config r) (id : ActorId)
    (name : Option String) : Kept config (r.register_named id name).1 := by
  rcases register_cases r id name with same | ⟨absent,by_name,added⟩
  · rw [same]; exact kept
  · rw [added]
    refine ⟨kept.sameConfig,fun k mb found => ?_,fun k present => ?_⟩
    · simp only [Dict.lookup_insert_ite] at found
      split at found
      · cases found
        rw [kept.sameConfig]
        exact sound_new id config
      · exact kept.sound k mb found
    · simp only [Dict.lookup_insert_ite] at present ⊢
      split
      · rfl
      · next other => exact kept.registered k (by simpa [other] using present)

theorem unregister_mailboxes (r : ActorRegistry) (id : ActorId) : (r.unregister id).1.mailboxes = r.mailboxes := by
  unfold ActorRegistry.unregister
  split <;> rfl

theorem unregister_other (r : ActorRegistry) {id k : ActorId} (other : k ≠ id) :
    (r.unregister id).1.by_id.lookup k = r.by_id.lookup k := by
  unfold ActorRegistry.unregister
  split
  · simp [other]
  · rfl

theorem Kept.unregister {config : MailboxConfig} {r : ActorRegistry} (kept : Kept config r) (id : ActorId) :
    Kept config (r.unregister id).1 := by
  unfold ActorRegistry.unregister
  split
  · refine ⟨kept.sameConfig,kept.sound,fun k present => kept.registered k ?_⟩
    simp only [Dict.lookup_erase_ite] at present
    split at present
    · cases present
    · exact present
  · exact kept

theorem sane_step {s s' : System} {label : Label} (fits : s.config.mailbox_config.capacity < 2 ^ 64) (sane : Sane s)
    (stepped : s.step label = some s') : Sane s' := by
  obtain ⟨move,noLocal⟩ := step_move sane.toNoLocal stepped
  refine ⟨noLocal,?_⟩
  cases move with
  | worker _ moves =>
    cases moves with
    | look | take => exact sane.registry
    | @work _ job _ holds steps =>
      have effect := step_effect steps
      exact sane.registry.effect fits effect
  | client _ moves =>
    cases moves with
    | enter =>
      obtain ⟨next,same⟩ := enter_frame s.shared _
      rw [same]
      exact sane.registry
    | look | enqueue => exact sane.registry
    | accept found pushes =>
      exact sane.registry.on_mailbox _ _ (fun _ _ => (push_one_sound fits (sane.registry.sound _ _ found) pushes).1)
    | refuse found pushes =>
      exact sane.registry.on_mailbox _ _ (fun _ _ => (push_one_sound fits (sane.registry.sound _ _ found) pushes).1)
    | @set_state id state => exact sane.registry.effect fits (.state : Effect _ [] _ _)
    | kill => exact sane.registry.effect fits (.state : Effect _ [] _ _)
    | clear => exact sane.registry.effect fits (.cleared : Effect _ [] _ _)
    | unregister => exact sane.registry.unregister _
  | drop_send | start_worker | set_running => exact sane.registry
  | spawn => exact sane.registry.register _ _
  | receive => exact sane.registry.effect fits (.received : Effect _ [] _ _)

theorem config_step {s s' : System} {label : Label} (stepped : s.step label = some s') : s'.config = s.config := by
  cases label with
  | worker | client =>
    obtain ⟨_,_,rest⟩ := Option.bind_eq_some_iff.mp stepped
    obtain ⟨_,_,same⟩ := Option.bind_eq_some_iff.mp rest
    cases same
    rfl
  | drop_send =>
    simp only [System.step] at stepped
    split at stepped <;> cases stepped <;> rfl
  | spawn =>
    simp only [System.step] at stepped
    split at stepped <;> cases stepped
    rfl
  | receive | start_worker | set_running => cases stepped; rfl

/-- Every run keeps the configuration and the facts above. -/
theorem sane_reach {config : SchedulerConfig} (fits : config.mailbox_config.capacity < 2 ^ 64) {n : Nat}
    {ok : System → Label → Prop} {s : System} (reached : Reach System.step ok (.init config n) s) :
    s.config = config ∧ Sane s := by
  have keeps : ∀ s label s', (s.config = config ∧ Sane s) → ok s label → s.step label = some s' →
      s'.config = config ∧ Sane s' := by
    rintro s label s' ⟨same,sane⟩ - stepped
    exact ⟨(config_step stepped).trans same,sane_step (by rw [same]; exact fits) sane stepped⟩
  exact reached.invariant ⟨rfl,sane_init config n⟩ keeps

end ActorKit.Moves
