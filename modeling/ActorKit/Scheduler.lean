import ActorKit.Registry
import ActorKit.Queue

/-!
# The scheduler

The model of `scheduler.rs` as workers and clients that take turns. Every call
of the source on the registry, a mailbox, an injector, a local deque or the
executor is one step; what a thread does between two calls happens with the call
before it. What the executor answers, how many tasks a batch steal moves and
what the resource policy decides come with the label of a step. Statistics and
the results of the calls are left out.
-/

namespace ActorKit.scheduler
open ActorKit.mailbox ActorKit.registry ActorKit.queue

/-- Configuration for the actor scheduler. -/
structure SchedulerConfig where
  mailbox_config : MailboxConfig := {}
  priority_scheduling : Bool := true
  max_steal_batch : Nat := 32
  stealer_refresh_interval : Nat := 1000
  /-- Whether an executor is installed. -/
  executor : Bool := false
deriving DecidableEq, Repr

/-- Result of executing an actor task. -/
inductive ExecutionResult where
  | Success
  | FuelExhausted
  | Failed
  | NotReady
deriving DecidableEq, Repr

/-- What becomes of a call of the executor. -/
inductive Execution where
  | returns (result : ExecutionResult)
  | panics
deriving DecidableEq, Repr

/-- The signals and lifecycle messages that are processed while suspended. -/
def is_control : MessagePayload → Bool
  | .Signal _ | .Start | .Stop => true
  | _ => false

/-- The state `handle_state_change_for` sets. -/
def state_change : MessagePayload → Option ActorState
  | .Start => some .Running
  | .Stop => some .Stopped
  | .Signal .Pause => some .Suspended
  | .Signal .Resume => some .Running
  | .Signal .Restart => some .Creating
  | _ => none

/-- The state a successful execution sets. -/
def success_change : MessagePayload → Option ActorState
  | .Start => some .Running
  | .Stop => some .Stopped
  | _ => none

/-- What happened so far. No step reads it, except that every call gives its
    messages fresh `uid`s. -/
structure History where
  next_uid : Nat := 0
  /-- Messages pushed into a mailbox by a send. -/
  accepted : List (ActorId × Message) := []
  /-- Tasks pushed by sends, with the client. -/
  enqueued : List (Nat × Task) := []
  /-- Tasks taken by workers. -/
  taken : List Task := []
  /-- Messages that entered the `Running | Creating` arm. -/
  executed : List (ActorId × Message) := []
  /-- Messages that entered the re-queueing branch of the `Suspended` arm. -/
  requeued : List (ActorId × Message) := []
deriving DecidableEq, Repr

/-- What all threads share. -/
structure Shared where
  registry : ActorRegistry
  injectors : Injectors := {}
  /-- The local queues of all workers ever started. -/
  deques : List (List Task) := []
  /-- The stealer registry: worker ids and their local queues. -/
  stealers : List (Nat × Nat) := []
  running : Bool := false
  history : History := {}

namespace Shared

def set_state (g : Shared) (id : ActorId) (state : ActorState) : Shared :=
  { g with registry := (g.registry.set_state id state).1 }

def on_mailbox (g : Shared) (id : ActorId) (f : Mailbox → Mailbox) : Shared :=
  { g with registry := g.registry.on_mailbox id f }

def log_executed (g : Shared) (id : ActorId) (m : Message) : Shared :=
  { g with history := { g.history with executed := g.history.executed ++ [(id,m)] } }

def log_requeued (g : Shared) (id : ActorId) (m : Message) : Shared :=
  { g with history := { g.history with requeued := g.history.requeued ++ [(id,m)] } }

def log_taken (g : Shared) (task : Task) : Shared :=
  { g with history := { g.history with taken := g.history.taken ++ [task] } }

end Shared

/-! ## Processing a task -/

/-- The next call of a worker inside `process_task_safe`. -/
inductive Stage where
  -- `process_single_message`
  | get_state (message : Message)
  -- its `Running | Creating` arm
  | execute (message : Message)
  | set_state (state : ActorState)
  | record
  | get_mailbox
  | release
  | fail
  | fail_mailbox
  | fail_clear
  -- its `Suspended` arm
  | control (message : Message)
  | control_mailbox
  | control_release
  | control_check
  | drain
  | drain_empty
  | drain_pop
  | requeue (message : Message)
  | requeue_push (message : Message)
  -- `process_task` after a message of a batch
  | check
  -- `process_task_safe` after a panic
  | panic
  | panic_mailbox
  | panic_clear
deriving DecidableEq, Repr

/-- A task being processed: the messages of its batch still to come, and how
    many drains enclose the current message. -/
structure Job where
  actor_id : ActorId
  batch : Bool
  rest : List Message
  depth : Nat := 0
  stage : Stage
deriving DecidableEq, Repr

def Job.start (task : Task) : Job :=
  { actor_id := task.actor_id
    batch := !task.additional_messages.isEmpty
    rest := task.additional_messages
    stage := .get_state task.message }

/-- `process_single_message` has returned: to the drain that called it, to the
    batch, or out of `process_task_safe`. -/
def Job.finish (job : Job) : Option Job :=
  match job.depth with
  | depth + 1 => some { job with depth, stage := .drain }
  | 0 => if job.batch then some { job with stage := .check } else none

/-- The call after the executor has answered. -/
def Stage.after : Option ActorState → Stage
  | some state => .set_state state
  | none => .record

/-- The next call of a worker that processes a task; `none` when
    `process_task_safe` has returned. -/
def Job.step (config : SchedulerConfig) (g : Shared) (job : Job) (execution : Execution) : Shared × Option Job :=
  let id := job.actor_id
  let goto (stage : Stage) : Option Job := some { job with stage }
  match job.stage with
  | .get_state message => match g.registry.get_state id with
    | some .Running | some .Creating => (g,goto (.execute message))
    | some .Suspended =>
      if is_control message.payload then (g,goto (.control message))
      else (g.log_requeued id message,goto (.requeue message))
    | some .Stopped | some .Failed | none => (g,job.finish)
  | .execute message =>
    let g := g.log_executed id message
    if config.executor then match execution with
      | .returns .Success => (g,goto (.after (success_change message.payload)))
      | .returns .NotReady => (g,goto (.after (state_change message.payload)))
      | .returns .FuelExhausted | .returns .Failed => (g,goto .fail)
      | .panics => (g,goto .panic)
    else (g,goto (.after (state_change message.payload)))
  | .set_state state => (g.set_state id state,goto .record)
  | .record => ({ g with registry := g.registry.record_processed id },goto .get_mailbox)
  | .get_mailbox => match g.registry.get_mailbox id with
    | some _ => (g,goto .release)
    | none => (g,job.finish)
  | .release => (g.on_mailbox id (fun mb => mb.try_recv.1),job.finish)
  | .fail => (g.set_state id .Failed,goto .fail_mailbox)
  | .fail_mailbox => match g.registry.get_mailbox id with
    | some _ => (g,goto .fail_clear)
    | none => (g,job.finish)
  | .fail_clear => (g.on_mailbox id Mailbox.clear,job.finish)
  | .control message => match state_change message.payload with
    | some state => (g.set_state id state,goto .control_mailbox)
    | none => (g,goto .control_mailbox)
  | .control_mailbox => match g.registry.get_mailbox id with
    | some _ => (g,goto .control_release)
    | none => (g,goto .control_check)
  | .control_release => (g.on_mailbox id (fun mb => mb.try_recv.1),goto .control_check)
  | .control_check => match g.registry.get_state id with
    | some .Running | some .Creating => (g,goto .drain)
    | some .Suspended | some .Stopped | some .Failed | none => (g,job.finish)
  | .drain => match g.registry.get_mailbox id with
    | some _ => (g,goto .drain_empty)
    | none => (g,job.finish)
  | .drain_empty => match g.registry.mailboxes.lookup id with
    | some mb => if mb.is_empty then (g,job.finish) else (g,goto .drain_pop)
    | none => (g,job.finish)
  | .drain_pop => match g.registry.mailboxes.lookup id with
    | some mb => match mb.try_recv.2 with
      | some queued =>
        (g.on_mailbox id (fun mb => mb.try_recv.1),some { job with depth := job.depth + 1, stage := .get_state queued })
      | none => (g,job.finish)
    | none => (g,job.finish)
  | .requeue message => match g.registry.get_mailbox id with
    | some _ => (g,goto (.requeue_push message))
    | none => (g,job.finish)
  | .requeue_push message => (g.on_mailbox id (fun mb => (mb.try_send message).1),job.finish)
  | .check => match g.registry.get_state id with
    | some .Failed | some .Stopped => (g,none)
    | some .Running | some .Creating | some .Suspended | none => match job.rest with
      | [] => (g,none)
      | message :: rest => (g,some { job with rest, stage := .get_state message })
  | .panic => (g.set_state id .Failed,goto .panic_mailbox)
  | .panic_mailbox => match g.registry.get_mailbox id with
    | some _ => (g,goto .panic_clear)
    | none => (g,none)
  | .panic_clear => (g.on_mailbox id Mailbox.clear,none)

/-! ## The worker loop -/

/-- The next call of a worker. -/
inductive WorkerPc where
  | head
  | version
  | refresh (current : Nat)
  | pop (lane : Lane)
  | pop_local
  | steal (victims : List Nat)
  | steal_batch (victim : Nat) (victims : List Nat) (stolen : Nat)
  | push_local (task : Task) (victim : Nat) (victims : List Nat) (stolen : Nat)
  | process (job : Job)
  | exited
deriving DecidableEq, Repr

/-- A worker thread: its id, its local queue and the locals of `worker_loop`. -/
structure Worker where
  worker_id : Nat
  deque : Nat
  iteration : Nat := 0
  last_version : Nat := 0
  stealers : List Nat := []
  index : Nat := 0
  pc : WorkerPc := .head
deriving DecidableEq, Repr

/-- The victims of one round of stealing, from the index on. -/
def Worker.victims (w : Worker) : List Nat := (round_robin w.index w.stealers.length).filterMap (w.stealers[·]?)

/-- The next round starts one victim later. -/
def Worker.rotated (w : Worker) : Worker :=
  if w.stealers.isEmpty then w else { w with index := (w.index + 1) % 2 ^ 64 }

/-- The head of the loop of `steal_batch`; after it the worker loop begins
    again. -/
def WorkerPc.next_victim (max : Nat) (victims : List Nat) (stolen : Nat) : WorkerPc :=
  match victims with
  | [] => .head
  | victim :: victims => if max ≤ stolen then .head else .steal_batch victim victims stolen

/-- Where the loop looks after a lane was empty. -/
def Worker.after_lane (w : Worker) : Lane → Worker
  | .critical => { w with pc := .pop .high }
  | .high => { w with pc := .pop .normal }
  | .normal => { w with pc := .pop .low }
  | .low => { w with pc := .pop_local }
  | .global => { w.rotated with pc := .steal w.victims }

/-- One call of a worker; `none` once its thread has ended. `moved` is how many
    tasks a batch steal moves besides the one it returns. -/
def Worker.step (config : SchedulerConfig) (g : Shared) (w : Worker) (execution : Execution) (moved : Nat) :
    Option (Shared × Worker) :=
  match w.pc with
  | .exited => none
  | .head =>
    if !g.running then some (g,{ w with pc := .exited })
    else
      let iteration := (w.iteration + 1) % 2 ^ 32
      if iteration % max config.stealer_refresh_interval 1 = 0 then some (g,{ w with iteration, pc := .version })
      else some (g,{ w with iteration, pc := .pop .critical })
  -- The version counts the stealers added so far.
  | .version =>
    if g.stealers.length ≠ w.last_version then some (g,{ w with pc := .refresh g.stealers.length })
    else some (g,{ w with pc := .pop .critical })
  | .refresh current =>
    let stealers := (g.stealers.filter (fun s => s.1 ≠ w.worker_id)).map (·.2)
    some (g,{ w with stealers, index := 0, last_version := current, pc := .pop .critical })
  | .pop lane => match g.injectors.get lane with
    | task :: rest =>
      some ({ g with injectors := g.injectors.set lane rest }.log_taken task,{ w with pc := .process (.start task) })
    | [] => some (g,w.after_lane lane)
  | .pop_local => match g.deques[w.deque]? with
    | some (task :: rest) =>
      some ({ g with deques := g.deques.set w.deque rest }.log_taken task,{ w with pc := .process (.start task) })
    | _ => some (g,{ w with pc := .pop .global })
  | .steal victims => match victims with
    | [] => some (g,{ w.rotated with pc := .next_victim config.max_steal_batch w.victims 0 })
    | victim :: victims => match g.deques[victim]? with
      | some (task :: rest) =>
        some ({ g with deques := g.deques.set victim rest }.log_taken task,{ w with pc := .process (.start task) })
      | _ => some (g,{ w with pc := .steal victims })
  | .steal_batch victim victims stolen => match g.deques[victim]? with
    | some (task :: rest) =>
      let left := g.deques.set victim (rest.drop moved)
      let deques := left.modify w.deque (· ++ rest.take moved)
      some ({ g with deques },{ w with pc := .push_local task victim victims stolen })
    | _ => some (g,{ w with pc := .next_victim config.max_steal_batch victims stolen })
  | .push_local task victim victims stolen =>
    some ({ g with deques := g.deques.modify w.deque (· ++ [task]) },
      { w with pc := .steal_batch victim victims (stolen + 1) })
  | .process job =>
    let (g,next) := job.step config g execution
    match next with
    | some job => some (g,{ w with pc := .process job })
    | none => some (g,{ w with pc := .head })

/-! ## Clients -/

/-- The three ways to send. -/
inductive SendKind where
  | send
  | send_batch
  | try_send
deriving DecidableEq, Repr

/-- What a client may call. -/
inductive Call where
  | send (target : ActorId) (message : Message)
  | send_batch (target : ActorId) (messages : List Message)
  | try_send (target : ActorId) (message : Message)
  | kill (id : ActorId)
  | set_actor_state (id : ActorId) (state : ActorState)
deriving DecidableEq, Repr

/-- The next call of a client. -/
inductive Client where
  | idle
  | admit_message (kind : SendKind) (target : ActorId) (messages : List Message)
  | get_mailbox (kind : SendKind) (target : ActorId) (messages : List Message)
  | get_state (kind : SendKind) (target : ActorId) (messages : List Message)
  | push (kind : SendKind) (target : ActorId) (pushed : List Message) (message : Message) (remaining : List Message)
  | enqueue (target : ActorId) (first : Message) (additional : List Message)
  | set_state (id : ActorId) (state : ActorState)
  | kill (id : ActorId)
  | kill_mailbox (id : ActorId)
  | kill_clear (id : ActorId)
  | kill_unregister (id : ActorId)
deriving DecidableEq, Repr

/-- Give the messages of a call their own `uid`s. -/
def stamp (next : Nat) (messages : List Message) : List Message :=
  messages.mapIdx (fun i m => { m with uid := next + i })

/-- The task of a call: its priority is the largest of its messages. -/
def task_of (target : ActorId) (first : Message) (additional : List Message) : Task :=
  { actor_id := target
    message := first
    priority := (additional.map (·.priority)).foldl Priority.max first.priority
    additional_messages := additional }

/-- The loop of `send_batch` over its messages, which `send` and `try_send` go
    through once. -/
def Client.pushing (kind : SendKind) (target : ActorId) (pushed : List Message) : List Message → Client
  | message :: remaining => .push kind target pushed message remaining
  | [] => match pushed with
    | first :: additional => .enqueue target first additional
    | [] => .idle

/-- A client enters a call; the messages it sends get their `uid`s. -/
def Client.enter (g : Shared) (call : Call) : Shared × Client :=
  let stamped (messages : List Message) : Shared :=
    { g with history := { g.history with next_uid := g.history.next_uid + messages.length } }
  match call with
  | .send target message => (stamped [message],.admit_message .send target (stamp g.history.next_uid [message]))
  | .send_batch target messages =>
    if messages.isEmpty then (g,.idle)
    else (stamped messages,.admit_message .send_batch target (stamp g.history.next_uid messages))
  | .try_send target message => (stamped [message],.get_mailbox .try_send target (stamp g.history.next_uid [message]))
  | .kill id => (g,.kill id)
  | .set_actor_state id state => (g,.set_state id state)

/-- The push of one message of a send: the mailbox it leaves, and whether the
    message was accepted; `none` while it waits. -/
def push_one (kind : SendKind) (mb : Mailbox) (message : Message) : Option (Mailbox × Bool) :=
  match kind with
  | .try_send => match mb.try_send message with
    | (mb,.ok _) => some (mb,true)
    | (mb,.error _) => some (mb,false)
  | .send | .send_batch => match mb.send message with
    | some (mb,.ok _) => some (mb,true)
    | some (mb,.error _) => some (mb,false)
    | none => none

/-- One call of client `i`; `none` while it waits for a permit. `admitted` is
    what the resource policy decides. -/
def Client.step (config : SchedulerConfig) (g : Shared) (i : Nat) (c : Client) (call : Call) (admitted : Bool) :
    Option (Shared × Client) :=
  match c with
  | .idle => some (Client.enter g call)
  | .admit_message kind target messages => some (g,if admitted then .get_mailbox kind target messages else .idle)
  | .get_mailbox kind target messages => match g.registry.get_mailbox target with
    | none => some (g,.idle)
    | some _ => match kind with
      | .send | .send_batch => some (g,.get_state kind target messages)
      | .try_send => some (g,.pushing kind target [] messages)
  | .get_state kind target messages => match g.registry.get_state target with
    | some .Stopped | some .Failed => some (g,.idle)
    | some .Creating | some .Running | some .Suspended | none => some (g,.pushing kind target [] messages)
  | .push kind target pushed message remaining => match g.registry.mailboxes.lookup target with
    | none => none
    | some mb => match push_one kind mb message with
      | none => none
      | some (mb,false) => some (g.on_mailbox target (fun _ => mb),.idle)
      | some (mb,true) =>
        let history := { g.history with accepted := g.history.accepted ++ [(target,message)] }
        some ({ g.on_mailbox target (fun _ => mb) with history },.pushing kind target (pushed ++ [message]) remaining)
  | .enqueue target first additional =>
    let task := task_of target first additional
    let lane := lane_of config.priority_scheduling task
    some ({ g with
      injectors := g.injectors.set lane (g.injectors.get lane ++ [task])
      history := { g.history with enqueued := g.history.enqueued ++ [(i,task)] } },.idle)
  | .set_state id state => some (g.set_state id state,.idle)
  | .kill id => match g.registry.get_state id with
    | some _ => some (g.set_state id .Stopped,.kill_mailbox id)
    | none => some (g,.idle)
  | .kill_mailbox id => match g.registry.get_mailbox id with
    | some _ => some (g,.kill_clear id)
    | none => some (g,.kill_unregister id)
  | .kill_clear id => some (g.on_mailbox id Mailbox.clear,.kill_unregister id)
  | .kill_unregister id => some ({ g with registry := (g.registry.unregister id).1 },.idle)

/-! ## The system -/

/-- A scheduler with its workers and clients. -/
structure System where
  config : SchedulerConfig
  shared : Shared
  workers : List Worker := []
  clients : List Client

/-- Who takes the next step. -/
inductive Label where
  | worker (i : Nat) (execution : Execution) (moved : Nat)
  | client (i : Nat) (call : Call) (admitted : Bool)
  /-- A send future that waits for a permit is dropped. -/
  | drop_send (i : Nat)
  /-- `spawn_named` under an id that was never used. -/
  | spawn (id : ActorId) (name : Option String)
  /-- Somebody else receives from the mailbox of an actor. -/
  | receive (id : ActorId)
  /-- One turn of the loop of `start`. -/
  | start_worker (worker_id : Nat)
  | set_running (running : Bool)
deriving DecidableEq, Repr

def System.step (s : System) : Label → Option System
  | .worker i execution moved => do
    let w ← s.workers[i]?
    let (shared,w) ← w.step s.config s.shared execution moved
    some { s with shared, workers := s.workers.set i w }
  | .client i call admitted => do
    let c ← s.clients[i]?
    let (shared,c) ← c.step s.config s.shared i call admitted
    some { s with shared, clients := s.clients.set i c }
  | .drop_send i => match s.clients[i]? with
    | some (.push .send ..) | some (.push .send_batch ..) => some { s with clients := s.clients.set i .idle }
    | _ => none
  | .spawn id name =>
    if (s.shared.registry.mailboxes.lookup id).isSome then none
    else some { s with shared := { s.shared with registry := (s.shared.registry.register_named id name).1 } }
  | .receive id => some { s with shared := s.shared.on_mailbox id (fun mb => mb.try_recv.1) }
  | .start_worker worker_id =>
    let deque := s.shared.deques.length
    some { s with
      shared := { s.shared with
        deques := s.shared.deques ++ [[]]
        stealers := s.shared.stealers ++ [(worker_id,deque)] }
      workers := s.workers ++ [{ worker_id, deque }] }
  | .set_running running => some { s with shared := { s.shared with running } }

/-- A new scheduler with `n` clients and no worker started. -/
def System.init (config : SchedulerConfig) (n : Nat) : System where
  config
  shared := { registry := .with_mailbox_config config.mailbox_config }
  clients := List.replicate n .idle

end ActorKit.scheduler
