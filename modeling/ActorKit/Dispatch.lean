import ActorKit.Scheduler

/-!
# Dispatching a task

`process_task_safe` and what it calls, as one worker runs it while nobody else is
active. The inline drain of a mailbox need not end: the functions get fuel, and
`none` means that it ran out. Worker statistics are left out.
-/

namespace ActorKit.dispatch
open ActorKit.mailbox ActorKit.registry ActorKit.queue ActorKit.scheduler
variable {σ : Type}

/-- `execute` of an executor with a state of its own. -/
abbrev Executor (σ : Type) := σ → ActorId → Message → σ × Execution

/-- What the dispatch of a task has reached. No function reads the last two
    fields. -/
structure Run (σ : Type) where
  registry : ActorRegistry
  executor : σ
  /-- The calls of `execute`, with what became of them. -/
  calls : List (Message × Execution) := []
  /-- The messages acted on, with the state their actor was found in. -/
  seen : List (ActorState × Message) := []

/-- How a call ends. -/
inductive Exit where
  | returned
  | panicked
deriving DecidableEq, Repr

def Run.saw (run : Run σ) (state : ActorState) (message : Message) : Run σ :=
  { run with seen := run.seen ++ [(state,message)] }

/-- A change of the registry. -/
def Run.update (run : Run σ) (f : ActorRegistry → ActorRegistry) : Run σ := { run with registry := f run.registry }

def handle_state_change_for (id : ActorId) (message : Message) (registry : ActorRegistry) : ActorRegistry :=
  match state_change message.payload with
  | some state => (registry.set_state id state).1
  | none => registry

/-- `mailbox.try_recv()` on the mailbox of an actor that has one. -/
def release_slot (id : ActorId) (registry : ActorRegistry) : ActorRegistry :=
  match registry.get_mailbox id with
  | some _ => registry.on_mailbox id (fun mb => mb.try_recv.1)
  | none => registry

/-- What happens to a message that counts as processed. -/
def count_message (id : ActorId) (registry : ActorRegistry) : ActorRegistry :=
  release_slot id (registry.record_processed id)

/-- The actor is marked as failed and its mailbox cleared. -/
def fail_actor (id : ActorId) (registry : ActorRegistry) : ActorRegistry :=
  let registry := (registry.set_state id .Failed).1
  match registry.get_mailbox id with
  | some _ => registry.on_mailbox id Mailbox.clear
  | none => registry

/-- The state change of a message that was executed with success. -/
def handle_success (id : ActorId) (message : Message) (registry : ActorRegistry) : ActorRegistry :=
  match success_change message.payload with
  | some state => (registry.set_state id state).1
  | none => registry

/-- The `Running | Creating` arm of `process_single_message`. -/
def execute_message (executor : Option (Executor σ)) (run : Run σ) (id : ActorId) (message : Message) : Run σ × Exit :=
  match executor with
  | none => (run.update (fun r => count_message id (handle_state_change_for id message r)),.returned)
  | some execute =>
    let (state,execution) := execute run.executor id message
    let run := { run with executor := state, calls := run.calls ++ [(message,execution)] }
    match execution with
    | .returns .Success => (run.update (fun r => count_message id (handle_success id message r)),.returned)
    | .returns .FuelExhausted | .returns .Failed => (run.update (fail_actor id),.returned)
    | .returns .NotReady => (run.update (fun r => count_message id (handle_state_change_for id message r)),.returned)
    | .panics => (run,.panicked)

/-- A message that is sent back to the mailbox of its suspended actor. -/
def requeue_message (id : ActorId) (message : Message) (registry : ActorRegistry) : ActorRegistry :=
  match registry.get_mailbox id with
  | some _ => registry.on_mailbox id (fun mb => (mb.try_send message).1)
  | none => registry

mutual

def process_single_message (executor : Option (Executor σ)) :
    Nat → Run σ → ActorId → Message → Option (Run σ × Exit)
  | 0,_,_,_ => none
  | fuel + 1,run,id,message => match run.registry.get_state id with
    | some .Running => some (execute_message executor (run.saw .Running message) id message)
    | some .Creating => some (execute_message executor (run.saw .Creating message) id message)
    | some .Suspended =>
      let run := run.saw .Suspended message
      if is_control message.payload then
        let run := run.update (fun r => release_slot id (handle_state_change_for id message r))
        match run.registry.get_state id with
        | some .Running | some .Creating => drain executor fuel run id
        | some .Suspended | some .Stopped | some .Failed | none => some (run,.returned)
      else some (run.update (requeue_message id message),.returned)
    | some .Stopped | some .Failed | none => some (run,.returned)

/-- The `while let` loop of the `Suspended` arm. -/
def drain (executor : Option (Executor σ)) : Nat → Run σ → ActorId → Option (Run σ × Exit)
  | 0,_,_ => none
  | fuel + 1,run,id => match run.registry.get_mailbox id with
    | none => some (run,.returned)
    | some mailbox =>
      if mailbox.is_empty then some (run,.returned)
      else
        let run := run.update (fun r => r.on_mailbox id (fun mb => mb.try_recv.1))
        match mailbox.try_recv.2 with
        | none => some (run,.returned)
        | some queued => match process_single_message executor fuel run id queued with
          | some (run,.returned) => drain executor fuel run id
          | some (run,.panicked) => some (run,.panicked)
          | none => none

end

/-- Whether the rest of a batch is skipped. -/
def no_longer_viable (registry : ActorRegistry) (id : ActorId) : Bool :=
  match registry.get_state id with
  | some .Failed | some .Stopped => true
  | some .Running | some .Creating | some .Suspended | none => false

/-- The messages of a batch, with the check after each of them. -/
def process_batch (executor : Option (Executor σ)) (fuel : Nat) (run : Run σ) (id : ActorId) :
    List Message → Option (Run σ × Exit)
  | [] => some (run,.returned)
  | message :: rest => match process_single_message executor fuel run id message with
    | some (run,.returned) =>
      if no_longer_viable run.registry id then some (run,.returned) else process_batch executor fuel run id rest
    | some (run,.panicked) => some (run,.panicked)
    | none => none

def process_task (executor : Option (Executor σ)) (fuel : Nat) (run : Run σ) (task : Task) : Option (Run σ × Exit) :=
  if task.additional_messages.isEmpty then process_single_message executor fuel run task.actor_id task.message
  else process_batch executor fuel run task.actor_id task.messages

/-- Process a task with panic protection. -/
def process_task_safe (executor : Option (Executor σ)) (fuel : Nat) (run : Run σ) (task : Task) : Option (Run σ) :=
  match process_task executor fuel run task with
  | some (run,.returned) => some run
  | some (run,.panicked) => some (run.update (fail_actor task.actor_id))
  | none => none

/-- Tasks that are processed one after the other. -/
def process_tasks (executor : Option (Executor σ)) (fuel : Nat) (run : Run σ) : List Task → Option (Run σ)
  | [] => some run
  | task :: rest => match process_task_safe executor fuel run task with
    | some run => process_tasks executor fuel run rest
    | none => none

end ActorKit.dispatch
