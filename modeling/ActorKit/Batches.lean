import ActorKit.Dispatch

/-!
# A batch is its messages one by one

One task with a batch of messages does what single tasks do that carry the
messages in the same order. Where the batch stops early, the single tasks find an
actor that is stopped or failed and do nothing.
-/

namespace ActorKit.Batches
open ActorKit.mailbox ActorKit.registry ActorKit.queue ActorKit.scheduler ActorKit.dispatch
variable {σ : Type} {executor : Option (Executor σ)} {fuel : Nat} {run : Run σ} {id : ActorId}

/-- The task of a single message. -/
def single (id : ActorId) (message : Message) : Task := { actor_id := id, message, priority := message.priority }

/-- The messages of a task as tasks of their own. -/
def singles (task : Task) : List Task := task.messages.map (single task.actor_id)

/-- Messages are skipped in these states, and for an unknown actor. -/
def Idle (state : Option ActorState) : Prop := state = some .Stopped ∨ state = some .Failed ∨ state = none

theorem process_idle (idle : Idle (run.registry.get_state id)) (message : Message) :
    process_single_message executor (fuel + 1) run id message = some (run,.returned) := by
  rw [process_single_message]
  rcases idle with state | state | state <;> rw [state]

theorem tasks_idle (idle : Idle (run.registry.get_state id)) (messages : List Message) :
    process_tasks executor (fuel + 1) run (messages.map (single id)) = some run := by
  induction messages with
  | nil => rfl
  | cons message messages ih =>
    rw [List.map_cons,process_tasks,process_task_safe,process_task]
    simp only [single,List.isEmpty_nil,if_true,process_idle idle]
    exact ih

theorem idle_not_viable (stopped : no_longer_viable run.registry id = true) : Idle (run.registry.get_state id) := by
  unfold no_longer_viable at stopped
  match state : run.registry.get_state id with
  | some .Failed => exact .inr (.inl rfl)
  | some .Stopped => exact .inl rfl
  | some .Running | some .Creating | some .Suspended | none =>
    rw [state] at stopped
    cases stopped

theorem idle_failed (registry : ActorRegistry) : Idle ((fail_actor id registry).get_state id) := by
  have failed : Idle (((registry.set_state id .Failed).1).get_state id) := by
    unfold ActorRegistry.set_state
    split
    · next entry found => exact .inr (.inl (by simp [ActorRegistry.get_state,found]))
    · next absent => exact .inr (.inr (by simp [ActorRegistry.get_state,absent]))
  unfold fail_actor
  simp only
  split
  · exact failed
  · exact failed

/-- What `process_task_safe` makes of the end of a task. -/
def contain (id : ActorId) : Option (Run σ × Exit) → Option (Run σ)
  | some (run,.returned) => some run
  | some (run,.panicked) => some (run.update (fail_actor id))
  | none => none

theorem single_contained (message : Message) :
    process_task_safe executor fuel run (single id message) =
      contain id (process_single_message executor fuel run id message) := rfl

theorem batch_singles (messages : List Message) :
    contain id (process_batch executor fuel run id messages) =
      process_tasks executor fuel run (messages.map (single id)) := by
  induction messages generalizing run with
  | nil => rfl
  | cons message rest ih =>
    rw [List.map_cons,process_tasks,single_contained,process_batch]
    cases fuel with
    | zero => rfl
    | succ fuel =>
      match process_single_message executor (fuel + 1) run id message with
      | none => rfl
      | some (after,.panicked) => exact (tasks_idle (idle_failed after.registry) rest).symm
      | some (after,.returned) =>
        simp only [contain]
        by_cases stopped : no_longer_viable after.registry id = true
        · simp only [stopped,if_true]
          exact (tasks_idle (idle_not_viable stopped) rest).symm
        · simp only [stopped,if_false,Bool.false_eq_true]
          exact ih

theorem task_singles (task : Task) :
    process_task_safe executor fuel run task = process_tasks executor fuel run (singles task) := by
  unfold singles
  rw [← batch_singles]
  have safe : process_task_safe executor fuel run task = contain task.actor_id (process_task executor fuel run task) := rfl
  rw [safe,process_task]
  cases more : task.additional_messages with
  | cons message rest => rfl
  | nil =>
    rw [Task.messages,more]
    simp only [List.isEmpty_nil,if_true,process_batch]
    match process_single_message executor fuel run task.actor_id task.message with
    | none => rfl
    | some (after,.panicked) => rfl
    | some (after,.returned) => simp only [ite_self]

theorem process_tasks_append (first second : List Task) :
    process_tasks executor fuel run (first ++ second) =
      (process_tasks executor fuel run first).bind (fun run => process_tasks executor fuel run second) := by
  induction first generalizing run with
  | nil => rfl
  | cons task first ih =>
    rw [List.cons_append,process_tasks,process_tasks]
    cases process_task_safe executor fuel run task with
    | none => rfl
    | some after => exact ih

/-- Tasks one after the other are their messages one after the other. -/
theorem tasks_singles (tasks : List Task) :
    process_tasks executor fuel run tasks = process_tasks executor fuel run (tasks.flatMap singles) := by
  induction tasks generalizing run with
  | nil => rfl
  | cons task tasks ih =>
    rw [List.flatMap_cons,process_tasks_append,process_tasks,task_singles]
    cases process_tasks executor fuel run (singles task) with
    | none => rfl
    | some after => exact ih

/-- The messages of tasks for one actor. -/
theorem flat_singles {tasks : List Task} (same : ∀ task ∈ tasks, task.actor_id = id) :
    tasks.flatMap singles = (tasks.flatMap Task.messages).map (single id) := by
  induction tasks with
  | nil => rfl
  | cons task tasks ih =>
    rw [List.flatMap_cons,List.flatMap_cons,List.map_append,ih (fun t member => same t (List.mem_cons_of_mem _ member)),
      singles,same task List.mem_cons_self]

/-- Whatever the actor, its mailbox, the messages and the executor: a task and its
    messages as single tasks leave the same registry, the same executor and the
    same calls of `execute`, and the one ends exactly when the other does. -/
theorem batch_is_singles (executor : Option (Executor σ)) (fuel : Nat) (run : Run σ) (task : Task) :
    process_task_safe executor fuel run task = process_tasks executor fuel run (singles task) :=
  task_singles task

end ActorKit.Batches
