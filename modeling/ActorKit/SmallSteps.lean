import ActorKit.Lib.Ending
import ActorKit.Turns

/-!
# Dispatch, call by call

`process_task_safe` is modelled twice: `Dispatch` runs it in one go, the workers of
the scheduler make one call of it at a time. While no other thread moves the two
are the same: the calls of a worker come to an end exactly when the dispatch
returns, and leave what the dispatch leaves.
-/

namespace ActorKit.SmallSteps
open ActorKit.mailbox ActorKit.registry ActorKit.queue ActorKit.scheduler ActorKit.dispatch ActorKit.Transition ActorKit.Ending
open ActorKit.Turns (fuel_succ fuel_le)
variable {σ : Type}

/-- A worker inside `process_task_safe`. -/
structure Conf (σ : Type) where
  shared : Shared
  executor : σ
  /-- Its next call; none when `process_task_safe` has returned. -/
  next : Option Job

/-- What the executor answers, if the next call is `execute`. -/
def answer (executor : Option (Executor σ)) (state : σ) (job : Job) : σ × Execution :=
  match job.stage,executor with
  | .execute message,some execute => execute state job.actor_id message
  | _,_ => (state,.returns .Success)

/-- One call of the worker. -/
def call (config : SchedulerConfig) (executor : Option (Executor σ)) (c : Conf σ) (_ : Unit) : Option (Conf σ) :=
  c.next.map (fun job =>
    let (state,execution) := answer executor c.executor job
    let (shared,next) := job.step config c.shared execution
    { shared, executor := state, next })

/-- `n` calls, one after the other. -/
abbrev Calls (config : SchedulerConfig) (executor : Option (Executor σ)) : Conf σ → Nat → Conf σ → Prop :=
  Takes (call config executor) (fun _ _ => True)

/-- The messages that were executed, as the history notes them. -/
def executedOf (id : ActorId) (seen : List (ActorState × Message)) : List (ActorId × Message) :=
  (seen.filter (fun x => x.1 != .Suspended)).map (fun x => (id,x.2))

/-- The messages that were sent back to the mailbox. -/
def requeuedOf (id : ActorId) (seen : List (ActorState × Message)) : List (ActorId × Message) :=
  (seen.filter (fun x => x.1 == .Suspended && !is_control x.2.payload)).map (fun x => (id,x.2))

/-- The shared state while the dispatch of a task has reached `run`. -/
def place (g : Shared) (id : ActorId) (run : Run σ) : Shared :=
  { g with
    registry := run.registry
    history := { g.history with
      executed := g.history.executed ++ executedOf id run.seen
      requeued := g.history.requeued ++ requeuedOf id run.seen } }

/-- The worker when the dispatch has reached `run`. -/
def at_ (g : Shared) (id : ActorId) (run : Run σ) (next : Option Job) : Conf σ :=
  { shared := place g id run, executor := run.executor, next }

/-- At least one call leads from one configuration to the other. -/
def Leads (config : SchedulerConfig) (executor : Option (Executor σ)) (c d : Conf σ) : Prop :=
  ∃ n, Calls config executor c (n + 1) d

section
variable {config : SchedulerConfig} {executor : Option (Executor σ)} {c d e : Conf σ}

theorem Leads.one (called : call config executor c () = some d) : Leads config executor c d :=
  ⟨0,.next .start trivial called⟩

theorem Leads.trans (first : Leads config executor c d) (second : Leads config executor d e) :
    Leads config executor c e := by
  obtain ⟨n,calls⟩ := first
  obtain ⟨m,more⟩ := second
  exact ⟨n + 1 + m,calls.append more⟩

/-- What is left of a run that has come this far. -/
theorem Leads.rest (leads : Leads config executor c d) {n : Nat} {last : Conf σ} (whole : Calls config executor c n last)
    (ended : last.next = none) : ∃ m, m < n ∧ Calls config executor d m last := by
  obtain ⟨k,part⟩ := leads
  have stuck : Stuck (call config executor) (fun _ _ => True) last := by
    intro _ _
    simp [call,ended]
  obtain ⟨less,calls⟩ := takes_split part whole stuck
  exact ⟨n - (k + 1),by omega,calls⟩

end

theorem drain_le {executor : Option (Executor σ)} {fuel fuel' : Nat} (less : fuel ≤ fuel') {run : Run σ} {id : ActorId}
    {result : Run σ × Exit} (ended : drain executor fuel run id = some result) :
    drain executor fuel' run id = some result := by
  induction less with
  | refl => exact ended
  | step _ ih => exact (fuel_succ _).2 _ _ _ ih

/-! ## The calls of one message -/

section
variable {config : SchedulerConfig} {executor : Option (Executor σ)} (g : Shared) (id : ActorId) (batch : Bool)
  (rest : List Message)

/-- The next call of the worker: the stage it is in, `depth` drains deep. -/
def stage (depth : Nat) (s : Stage) : Option Job := some ⟨id,batch,rest,depth,s⟩

/-- Where the worker goes on after `process_single_message`. -/
def finish (depth : Nat) : Option Job := Job.finish ⟨id,batch,rest,depth,.record⟩

/-- The state that is set, if any. -/
def assign (change : Option ActorState) (r : ActorRegistry) : ActorRegistry :=
  change.elim r (fun state => (r.set_state id state).1)

theorem state_change_assigns (message : Message) (r : ActorRegistry) :
    handle_state_change_for id message r = assign id (state_change message.payload) r := by
  unfold handle_state_change_for
  cases state_change message.payload <;> rfl

theorem success_assigns (message : Message) (r : ActorRegistry) :
    handle_success id message r = assign id (success_change message.payload) r := by
  unfold handle_success
  cases success_change message.payload <;> rfl

/-- Where the worker goes on after `execute` has answered. -/
def reply (depth : Nat) (message : Message) : Execution → Option Job
  | .returns .Success => stage id batch rest depth (.after (success_change message.payload))
  | .returns .NotReady => stage id batch rest depth (.after (state_change message.payload))
  | .returns .FuelExhausted | .returns .Failed => stage id batch rest depth .fail
  | .panics => stage id batch rest depth .panic

/-- A call that is not `execute`. -/
theorem plain {s : Stage} {depth : Nat} {run : Run σ} {f : ActorRegistry → ActorRegistry} {next : Option Job}
    (answers : answer executor run.executor ⟨id,batch,rest,depth,s⟩ = (run.executor,.returns .Success))
    (steps : Job.step config (place g id run) ⟨id,batch,rest,depth,s⟩ (.returns .Success) =
      ({ place g id run with registry := f run.registry },next)) :
    Leads config executor (at_ g id run (stage id batch rest depth s)) (at_ g id (run.update f) next) := by
  refine .one ?_
  simp only [call,at_,stage,Option.map_some,answers,steps]
  rfl

/-- A call that only decides what comes next. -/
theorem look {s : Stage} {depth : Nat} {run : Run σ} (next : Option Job)
    (answers : answer executor run.executor ⟨id,batch,rest,depth,s⟩ = (run.executor,.returns .Success))
    (steps : Job.step config (place g id run) ⟨id,batch,rest,depth,s⟩ (.returns .Success) = (place g id run,next)) :
    Leads config executor (at_ g id run (stage id batch rest depth s)) (at_ g id run next) :=
  plain g id batch rest (f := fun r => r) answers steps

variable (depth : Nat) (run : Run σ)

theorem release_calls : Leads config executor (at_ g id run (stage id batch rest depth .get_mailbox))
    (at_ g id (run.update (release_slot id)) (finish id batch rest depth)) := by
  cases found : run.registry.get_mailbox id with
  | none =>
    have same : run.update (release_slot id) = run := by
      simp only [Run.update,release_slot,found]
    rw [same]
    refine look g id batch rest _ rfl ?_
    simp only [Job.step,place,found]
    rfl
  | some mb =>
    have same : run.update (release_slot id) = run.update (fun r => r.on_mailbox id (fun mb => mb.try_recv.1)) := by
      simp only [Run.update,release_slot,found]
    rw [same]
    refine (look g id batch rest (stage id batch rest depth .release) rfl ?_).trans
      (plain g id batch rest (s := .release) rfl rfl)
    simp only [Job.step,place,found]
    rfl

theorem count_calls : Leads config executor (at_ g id run (stage id batch rest depth .record))
    (at_ g id (run.update (count_message id)) (finish id batch rest depth)) := by
  have recorded : Leads config executor (at_ g id run (stage id batch rest depth .record))
      (at_ g id (run.update (fun r => r.record_processed id)) (stage id batch rest depth .get_mailbox)) :=
    plain g id batch rest rfl rfl
  exact recorded.trans (release_calls g id batch rest depth _)

/-- The state change that the message asks for, and the slot it frees. -/
theorem change_calls (change : Option ActorState) {f : ActorRegistry → ActorRegistry} (changes : ∀ r, f r = assign id change r) :
    Leads config executor (at_ g id run (stage id batch rest depth (.after change)))
      (at_ g id (run.update (fun r => count_message id (f r))) (finish id batch rest depth)) := by
  cases change with
  | none =>
    have same : run.update (fun r => count_message id (f r)) = run.update (count_message id) := by
      simp only [Run.update,changes]
      rfl
    rw [same]
    exact count_calls g id batch rest depth run
  | some state =>
    have assigned : Leads config executor (at_ g id run (stage id batch rest depth (.set_state state)))
        (at_ g id (run.update f) (stage id batch rest depth .record)) := by
      refine plain g id batch rest rfl ?_
      rw [changes]
      rfl
    exact assigned.trans (count_calls g id batch rest depth _)

theorem fail_calls : Leads config executor (at_ g id run (stage id batch rest depth .fail))
    (at_ g id (run.update (fail_actor id)) (finish id batch rest depth)) := by
  have assigned : Leads config executor (at_ g id run (stage id batch rest depth .fail))
      (at_ g id (run.update (fun r => (r.set_state id .Failed).1)) (stage id batch rest depth .fail_mailbox)) :=
    plain g id batch rest rfl rfl
  refine assigned.trans ?_
  cases found : (run.registry.set_state id .Failed).1.get_mailbox id with
  | none =>
    have same : run.update (fail_actor id) = run.update (fun r => (r.set_state id .Failed).1) := by
      simp only [Run.update,fail_actor,found]
    rw [same]
    refine look g id batch rest _ rfl ?_
    simp only [Job.step,place,Run.update,found]
    rfl
  | some mb =>
    have same : run.update (fail_actor id) =
        (run.update (fun r => (r.set_state id .Failed).1)).update (fun r => r.on_mailbox id Mailbox.clear) := by
      simp only [Run.update,fail_actor,found]
    rw [same]
    refine (look g id batch rest (stage id batch rest depth .fail_clear) rfl ?_).trans
      (plain g id batch rest (s := .fail_clear) rfl rfl)
    simp only [Job.step,place,Run.update,found]
    rfl

theorem panic_calls : Leads config executor (at_ g id run (stage id batch rest depth .panic))
    (at_ g id (run.update (fail_actor id)) none) := by
  have assigned : Leads config executor (at_ g id run (stage id batch rest depth .panic))
      (at_ g id (run.update (fun r => (r.set_state id .Failed).1)) (stage id batch rest depth .panic_mailbox)) :=
    plain g id batch rest rfl rfl
  refine assigned.trans ?_
  cases found : (run.registry.set_state id .Failed).1.get_mailbox id with
  | none =>
    have same : run.update (fail_actor id) = run.update (fun r => (r.set_state id .Failed).1) := by
      simp only [Run.update,fail_actor,found]
    rw [same]
    refine look g id batch rest _ rfl ?_
    simp only [Job.step,place,Run.update,found]
  | some mb =>
    have same : run.update (fail_actor id) =
        (run.update (fun r => (r.set_state id .Failed).1)).update (fun r => r.on_mailbox id Mailbox.clear) := by
      simp only [Run.update,fail_actor,found]
    rw [same]
    refine (look g id batch rest (stage id batch rest depth .panic_clear) rfl ?_).trans
      (plain g id batch rest (s := .panic_clear) rfl rfl)
    simp only [Job.step,place,Run.update,found]
    rfl

/-- Where the worker goes on after a message: on with its task, or to the handler
    of a panic. -/
def Outcome : Exit → Option Job → Prop
  | .returned,next => next = finish id batch rest depth
  | .panicked,next => ∃ inner, next = stage id batch rest inner .panic

variable (installed : config.executor = executor.isSome)
include installed

theorem execute_calls {state : ActorState} (viable : state ≠ .Suspended) (message : Message) :
    ∃ next, Outcome id batch rest depth (execute_message executor (run.saw state message) id message).2 next ∧
      Leads config executor (at_ g id run (stage id batch rest depth (.execute message)))
        (at_ g id (execute_message executor (run.saw state message) id message).1 next) := by
  have logged : (place g id run).log_executed id message = place g id (run.saw state message) := by
    simp [place,Shared.log_executed,Run.saw,executedOf,requeuedOf,viable]
  cases executor with
  | none =>
    have absent : config.executor = false := installed
    have executed : Leads config none (at_ g id run (stage id batch rest depth (.execute message)))
        (at_ g id (run.saw state message) (stage id batch rest depth (.after (state_change message.payload)))) := by
      refine .one ?_
      simp only [call,at_,stage,Option.map_some,answer,Job.step,absent,Bool.false_eq_true,if_false,logged]
      rfl
    exact ⟨_,rfl,executed.trans (change_calls g id batch rest depth _ _ (state_change_assigns id message))⟩
  | some execute =>
    have present : config.executor = true := installed
    rcases answered : execute run.executor id message with ⟨state',execution⟩
    -- The call of `execute`, with what it answers.
    have executed : Leads config (some execute) (at_ g id run (stage id batch rest depth (.execute message)))
        (at_ g id { run.saw state message with executor := state', calls := run.calls ++ [(message,execution)] }
          (reply id batch rest depth message execution)) := by
      refine .one ?_
      simp only [call,at_,stage,Option.map_some,answer,Job.step,present,if_true,logged,answered]
      cases execution with
      | returns result => cases result <;> rfl
      | panics => rfl
    simp only [execute_message,Run.saw,answered]
    cases execution with
    | panics => exact ⟨_,⟨depth,rfl⟩,executed⟩
    | returns result =>
      cases result with
      | Success =>
        exact ⟨_,rfl,executed.trans (change_calls g id batch rest depth _ _ (success_assigns id message))⟩
      | NotReady =>
        exact ⟨_,rfl,executed.trans (change_calls g id batch rest depth _ _ (state_change_assigns id message))⟩
      | FuelExhausted => exact ⟨_,rfl,executed.trans (fail_calls g id batch rest depth _)⟩
      | Failed => exact ⟨_,rfl,executed.trans (fail_calls g id batch rest depth _)⟩

omit installed

/-- A control message of a suspended actor, up to the look at the state it left. -/
theorem control_calls (message : Message) : Leads config executor
    (at_ g id run (stage id batch rest depth (.control message)))
    (at_ g id (run.update (fun r => release_slot id (handle_state_change_for id message r)))
      (stage id batch rest depth .control_check)) := by
  have changed : Leads config executor (at_ g id run (stage id batch rest depth (.control message)))
      (at_ g id (run.update (handle_state_change_for id message)) (stage id batch rest depth .control_mailbox)) := by
    refine plain g id batch rest rfl ?_
    rw [state_change_assigns]
    cases change : state_change message.payload <;> simp only [Job.step,change] <;> rfl
  refine changed.trans ?_
  cases found : (handle_state_change_for id message run.registry).get_mailbox id with
  | none =>
    have same : run.update (fun r => release_slot id (handle_state_change_for id message r)) =
        run.update (handle_state_change_for id message) := by
      simp only [Run.update,release_slot,found]
    rw [same]
    refine look g id batch rest _ rfl ?_
    simp only [Job.step,place,Run.update,found]
    rfl
  | some mb =>
    have same : run.update (fun r => release_slot id (handle_state_change_for id message r)) =
        (run.update (handle_state_change_for id message)).update (fun r => r.on_mailbox id (fun mb => mb.try_recv.1)) := by
      simp only [Run.update,release_slot,found]
    rw [same]
    refine (look g id batch rest (stage id batch rest depth .control_release) rfl ?_).trans
      (plain g id batch rest (s := .control_release) rfl rfl)
    simp only [Job.step,place,Run.update,found]
    rfl

theorem requeue_calls (message : Message) : Leads config executor
    (at_ g id run (stage id batch rest depth (.requeue message)))
    (at_ g id (run.update (requeue_message id message)) (finish id batch rest depth)) := by
  cases found : run.registry.get_mailbox id with
  | none =>
    have same : run.update (requeue_message id message) = run := by
      simp only [Run.update,requeue_message,found]
    rw [same]
    refine look g id batch rest _ rfl ?_
    simp only [Job.step,place,found]
    rfl
  | some mb =>
    have same : run.update (requeue_message id message) =
        run.update (fun r => r.on_mailbox id (fun mb => (mb.try_send message).1)) := by
      simp only [Run.update,requeue_message,found]
    rw [same]
    refine (look g id batch rest (stage id batch rest depth (.requeue_push message)) rfl ?_).trans
      (plain g id batch rest (s := .requeue_push message) rfl rfl)
    simp only [Job.step,place,found]
    rfl

include installed

/-- The calls of `process_single_message`, up to its end or up to the drain. -/
theorem single_calls (message : Message) :
    (∃ run' exit next, (∀ fuel, process_single_message executor (fuel + 1) run id message = some (run',exit)) ∧
      Outcome id batch rest depth exit next ∧
      Leads config executor (at_ g id run (stage id batch rest depth (.get_state message))) (at_ g id run' next)) ∨
    ∃ run', (∀ fuel, process_single_message executor (fuel + 1) run id message = drain executor fuel run' id) ∧
      Leads config executor (at_ g id run (stage id batch rest depth (.get_state message)))
        (at_ g id run' (stage id batch rest depth .drain)) := by
  have ignored : (run.registry.get_state id = none ∨ run.registry.get_state id = some .Stopped ∨
      run.registry.get_state id = some .Failed) →
      ∃ run' exit next, (∀ fuel, process_single_message executor (fuel + 1) run id message = some (run',exit)) ∧
        Outcome id batch rest depth exit next ∧
        Leads config executor (at_ g id run (stage id batch rest depth (.get_state message))) (at_ g id run' next) := by
    intro dead
    refine ⟨run,.returned,_,fun fuel => ?_,rfl,look g id batch rest _ rfl ?_⟩
    · rw [process_single_message]
      rcases dead with state | state | state <;> simp only [state]
    · rcases dead with state | state | state <;> simp only [Job.step,place,state] <;> rfl
  have executes : ∀ state, state = .Running ∨ state = .Creating → run.registry.get_state id = some state →
      ∃ run' exit next, (∀ fuel, process_single_message executor (fuel + 1) run id message = some (run',exit)) ∧
        Outcome id batch rest depth exit next ∧
        Leads config executor (at_ g id run (stage id batch rest depth (.get_state message))) (at_ g id run' next) := by
    intro state viable found
    have awake : state ≠ .Suspended := by rcases viable with rfl | rfl <;> simp
    obtain ⟨next,outcome,leads⟩ := execute_calls g id batch rest depth run installed awake message
    refine ⟨_,_,next,fun fuel => ?_,outcome,
      (look g id batch rest (stage id batch rest depth (.execute message)) rfl ?_).trans leads⟩
    · rw [process_single_message]
      rcases viable with rfl | rfl <;> simp only [found]
    · rcases viable with rfl | rfl <;> simp only [Job.step,place,found] <;> rfl
  cases state : run.registry.get_state id with
  | none => exact .inl (ignored (.inl state))
  | some current =>
    cases current with
    | Stopped => exact .inl (ignored (.inr (.inl state)))
    | Failed => exact .inl (ignored (.inr (.inr state)))
    | Running => exact .inl (executes _ (.inl rfl) state)
    | Creating => exact .inl (executes _ (.inr rfl) state)
    | Suspended =>
      by_cases control : is_control message.payload = true
      · have saw : place g id (run.saw .Suspended message) = place g id run := by
          simp [place,Run.saw,executedOf,requeuedOf,control]
        have begun : Leads config executor (at_ g id run (stage id batch rest depth (.get_state message)))
            (at_ g id (run.saw .Suspended message) (stage id batch rest depth (.control message))) := by
          refine .one ?_
          simp only [call,at_,stage,Option.map_some,saw]
          simp only [answer,Job.step,place,state,control,if_true]
          rfl
        have changed := begun.trans (control_calls g id batch rest depth (run.saw .Suspended message) message)
        -- What the message has made of the state decides whether the mailbox is drained.
        cases after : ((run.saw .Suspended message).update
            (fun r => release_slot id (handle_state_change_for id message r))).registry.get_state id with
        | none =>
          refine .inl ⟨_,.returned,_,fun fuel => ?_,rfl,changed.trans (look g id batch rest _ rfl ?_)⟩
          · rw [process_single_message]
            simp only [state,control,if_true,after]
          · simp only [Job.step,place,after]
            rfl
        | some left =>
          cases left with
          | Running | Creating =>
            refine .inr ⟨_,fun fuel => ?_,changed.trans (look g id batch rest _ rfl ?_)⟩
            · rw [process_single_message]
              simp only [state,control,if_true,after]
            · simp only [Job.step,place,after]
              rfl
          | Suspended | Stopped | Failed =>
            refine .inl ⟨_,.returned,_,fun fuel => ?_,rfl,changed.trans (look g id batch rest _ rfl ?_)⟩
            · rw [process_single_message]
              simp only [state,control,if_true,after]
            · simp only [Job.step,place,after]
              rfl
      · have saw : place g id (run.saw .Suspended message) = (place g id run).log_requeued id message := by
          simp [place,Shared.log_requeued,Run.saw,executedOf,requeuedOf,control]
        have begun : Leads config executor (at_ g id run (stage id batch rest depth (.get_state message)))
            (at_ g id (run.saw .Suspended message) (stage id batch rest depth (.requeue message))) := by
          refine .one ?_
          simp only [call,at_,stage,Option.map_some,saw]
          simp only [answer,Job.step,place,state,control,if_false,Bool.false_eq_true]
          rfl
        refine .inl ⟨_,.returned,_,fun fuel => ?_,rfl,
          begun.trans (requeue_calls g id batch rest depth (run.saw .Suspended message) message)⟩
        rw [process_single_message]
        simp only [state,control,if_false,Bool.false_eq_true]

omit installed

theorem try_recv_missed {mb : Mailbox} (missed : mb.try_recv.2 = none) : mb.try_recv.1 = mb := by
  unfold Mailbox.try_recv at missed ⊢
  split
  · next taken => simp [taken] at missed
  · next none =>
    simp only [none] at missed
    split
    · next popped => simp [popped] at missed
    · rfl

/-- The loop that drains a mailbox, after one of its messages. -/
def drain_on (executor : Option (Executor σ)) (fuel : Nat) (id : ActorId) : Option (Run σ × Exit) → Option (Run σ × Exit)
  | some (run,.returned) => drain executor fuel run id
  | some (run,.panicked) => some (run,.panicked)
  | none => none

variable (config executor) in
/-- One turn of the loop that drains a mailbox. -/
theorem drain_calls :
    (∃ run', (∀ fuel, drain executor (fuel + 1) run id = some (run',.returned)) ∧
      Leads config executor (at_ g id run (stage id batch rest depth .drain)) (at_ g id run' (finish id batch rest depth))) ∨
    ∃ run' queued, (∀ fuel, drain executor (fuel + 1) run id =
        drain_on executor fuel id (process_single_message executor fuel run' id queued)) ∧
      Leads config executor (at_ g id run (stage id batch rest depth .drain))
        (at_ g id run' (stage id batch rest (depth + 1) (.get_state queued))) := by
  cases found : run.registry.get_mailbox id with
  | none =>
    refine .inl ⟨run,fun fuel => ?_,look g id batch rest _ rfl ?_⟩
    · rw [drain]
      simp only [found]
    · simp only [Job.step,place,found]
      rfl
  | some mb =>
    have stored : run.registry.mailboxes.lookup id = some mb := by
      unfold ActorRegistry.get_mailbox at found
      split at found
      · exact found
      · cases found
    have begun : Leads config executor (at_ g id run (stage id batch rest depth .drain))
        (at_ g id run (stage id batch rest depth .drain_empty)) := by
      refine look g id batch rest _ rfl ?_
      simp only [Job.step,place,found]
      rfl
    by_cases empty : mb.is_empty = true
    · refine .inl ⟨run,fun fuel => ?_,begun.trans (look g id batch rest _ rfl ?_)⟩
      · rw [drain]
        simp only [found,empty,if_true]
      · simp only [Job.step,place,stored,empty,if_true]
        rfl
    · have looked : Leads config executor (at_ g id run (stage id batch rest depth .drain))
          (at_ g id run (stage id batch rest depth .drain_pop)) := by
        refine begun.trans (look g id batch rest _ rfl ?_)
        simp only [Job.step,place,stored,empty,if_false,Bool.false_eq_true]
        rfl
      cases received : mb.try_recv.2 with
      | none =>
        have fixed : run.registry.mailboxes.modify id (fun mb => mb.try_recv.1) = run.registry.mailboxes :=
          Dict.modify_fixed stored (try_recv_missed received)
        have same : run.update (fun r => r.on_mailbox id (fun mb => mb.try_recv.1)) = run := by
          simp only [Run.update,ActorRegistry.on_mailbox,fixed]
        refine .inl ⟨run,fun fuel => ?_,looked.trans (look g id batch rest _ rfl ?_)⟩
        · rw [drain]
          simp only [found,empty,if_false,Bool.false_eq_true,received,same]
        · simp only [Job.step,place,stored,received]
          rfl
      | some queued =>
        refine .inr ⟨run.update (fun r => r.on_mailbox id (fun mb => mb.try_recv.1)),queued,fun fuel => ?_,
          looked.trans (plain g id batch rest rfl ?_)⟩
        · rw [drain]
          simp only [found,empty,if_false,Bool.false_eq_true,received]
          rfl
        · simp only [Job.step,place,stored,received]
          rfl

/-! ## One message, whatever it drains -/

include installed

/-- The calls follow the dispatch of a message, and a drain. -/
theorem dispatch_leads (fuel : Nat) :
    (∀ depth (run : Run σ) message run' exit, process_single_message executor fuel run id message = some (run',exit) →
      ∃ next, Outcome id batch rest depth exit next ∧
        Leads config executor (at_ g id run (stage id batch rest depth (.get_state message))) (at_ g id run' next)) ∧
    (∀ depth (run : Run σ) run' exit, drain executor fuel run id = some (run',exit) →
      ∃ next, Outcome id batch rest depth exit next ∧
        Leads config executor (at_ g id run (stage id batch rest depth .drain)) (at_ g id run' next)) := by
  induction fuel with
  | zero =>
    constructor
    · intro _ _ _ _ _ ended
      simp [process_single_message] at ended
    · intro _ _ _ _ ended
      simp [drain] at ended
  | succ fuel ih =>
    constructor
    · intro depth run message run' exit ended
      rcases single_calls g id batch rest depth run installed message with
        ⟨run₁,exit₁,next,same,outcome,leads⟩ | ⟨run₁,same,leads⟩
      · rw [same fuel] at ended
        cases ended
        exact ⟨next,outcome,leads⟩
      · rw [same fuel] at ended
        obtain ⟨next,outcome,more⟩ := ih.2 depth run₁ run' exit ended
        exact ⟨next,outcome,leads.trans more⟩
    · intro depth run run' exit ended
      rcases drain_calls config executor g id batch rest depth run with
        ⟨run₁,same,leads⟩ | ⟨run₁,queued,same,leads⟩
      · rw [same fuel] at ended
        cases ended
        exact ⟨_,rfl,leads⟩
      · rw [same fuel] at ended
        cases inner : process_single_message executor fuel run₁ id queued with
        | none => simp [inner,drain_on] at ended
        | some result =>
          obtain ⟨run₂,exit₂⟩ := result
          obtain ⟨next,outcome,more⟩ := ih.1 (depth + 1) run₁ queued run₂ exit₂ inner
          cases exit₂ with
          | panicked =>
            simp only [inner,drain_on,Option.some.injEq,Prod.mk.injEq] at ended
            obtain ⟨rfl,rfl⟩ := ended
            exact ⟨next,outcome,leads.trans more⟩
          | returned =>
            simp only [inner,drain_on] at ended
            obtain ⟨last,ends,further⟩ := ih.2 depth run₂ run' exit ended
            obtain rfl : next = stage id batch rest depth .drain := outcome
            exact ⟨last,ends,(leads.trans more).trans further⟩

/-- Calls that come to an end belong to a dispatch that returns. -/
theorem dispatch_returns (n : Nat) :
    (∀ depth (run : Run σ) message last, last.next = none →
      Calls config executor (at_ g id run (stage id batch rest depth (.get_state message))) n last →
      ∃ fuel run' exit, process_single_message executor fuel run id message = some (run',exit)) ∧
    (∀ depth (run : Run σ) last, last.next = none →
      Calls config executor (at_ g id run (stage id batch rest depth .drain)) n last →
      ∃ fuel run' exit, drain executor fuel run id = some (run',exit)) := by
  induction n using Nat.strongRecOn with
  | _ n ih =>
    constructor
    · intro depth run message last ended calls
      rcases single_calls g id batch rest depth run installed message with
        ⟨run₁,exit₁,next,same,-,-⟩ | ⟨run₁,same,leads⟩
      · exact ⟨1,run₁,exit₁,same 0⟩
      · obtain ⟨m,fewer,later⟩ := leads.rest calls ended
        obtain ⟨fuel,run',exit,returned⟩ := (ih m fewer).2 depth run₁ last ended later
        exact ⟨fuel + 1,run',exit,by rw [same fuel,returned]⟩
    · intro depth run last ended calls
      rcases drain_calls config executor g id batch rest depth run with
        ⟨run₁,same,-⟩ | ⟨run₁,queued,same,leads⟩
      · exact ⟨1,run₁,.returned,same 0⟩
      · obtain ⟨m,fewer,later⟩ := leads.rest calls ended
        obtain ⟨fuel,run₂,exit₂,inner⟩ := (ih m fewer).1 (depth + 1) run₁ queued last ended later
        cases exit₂ with
        | panicked => exact ⟨fuel + 1,run₂,.panicked,by simp only [same fuel,inner,drain_on]⟩
        | returned =>
          obtain ⟨next,outcome,more⟩ := (dispatch_leads g id batch rest installed fuel).1 (depth + 1) run₁ queued run₂ _ inner
          obtain rfl : next = stage id batch rest depth .drain := outcome
          obtain ⟨k,less,remaining⟩ := more.rest later ended
          obtain ⟨fuel',run',exit,returned⟩ := (ih k (by omega)).2 depth run₂ last ended remaining
          refine ⟨max fuel fuel' + 1,run',exit,?_⟩
          simp only [same,drain_on,fuel_le (Nat.le_max_left fuel fuel') inner]
          exact drain_le (Nat.le_max_right fuel fuel') returned

end

/-! ## Batches and tasks -/

section
variable {config : SchedulerConfig} {executor : Option (Executor σ)} (g : Shared) (id : ActorId)

theorem batch_le {fuel fuel' : Nat} (less : fuel ≤ fuel') {messages : List Message} {run : Run σ} {result : Run σ × Exit}
    (ended : process_batch executor fuel run id messages = some result) :
    process_batch executor fuel' run id messages = some result := by
  induction messages generalizing run with
  | nil => exact ended
  | cons message rest ih =>
    rw [process_batch] at ended ⊢
    cases processed : process_single_message executor fuel run id message with
    | none => simp [processed] at ended
    | some inner =>
      obtain ⟨run₁,exit⟩ := inner
      rw [fuel_le less processed]
      cases exit with
      | panicked => simpa [processed] using ended
      | returned =>
        simp only [processed] at ended ⊢
        split
        · next dead =>
          rw [if_pos dead] at ended
          exact ended
        · next viable =>
          rw [if_neg viable] at ended
          exact ih ended

/-- The check after a message of a batch. -/
theorem check_calls (rest : List Message) (run : Run σ) :
    Leads config executor (at_ g id run (stage id true rest 0 .check)) (at_ g id run
      (if no_longer_viable run.registry id then none
      else rest.head?.bind (fun message => stage id true rest.tail 0 (.get_state message)))) := by
  refine look g id true rest _ rfl ?_
  cases state : run.registry.get_state id with
  | none =>
    simp only [Job.step,place,state,no_longer_viable,Bool.false_eq_true,if_false]
    cases rest <;> rfl
  | some current =>
    cases current with
    | Failed | Stopped => simp only [Job.step,place,state,no_longer_viable,if_true]
    | Running | Creating | Suspended =>
      simp only [Job.step,place,state,no_longer_viable,Bool.false_eq_true,if_false]
      cases rest <;> rfl

/-- Where the worker goes on after a task: nowhere, or to the handler of a
    panic. -/
def Finished (batch : Bool) : Exit → Option Job → Prop
  | .returned,next => next = none
  | .panicked,next => ∃ rest inner, next = stage id batch rest inner .panic

variable (installed : config.executor = executor.isSome)
include installed

theorem batch_leads (fuel : Nat) {rest : List Message} {message : Message} {run run' : Run σ} {exit : Exit}
    (ended : process_batch executor fuel run id (message :: rest) = some (run',exit)) :
    ∃ next, Finished id true exit next ∧
      Leads config executor (at_ g id run (stage id true rest 0 (.get_state message))) (at_ g id run' next) := by
  induction rest generalizing message run with
  | nil =>
    rw [process_batch] at ended
    cases processed : process_single_message executor fuel run id message with
    | none => simp [processed] at ended
    | some inner =>
      obtain ⟨run₁,exit₁⟩ := inner
      obtain ⟨next,outcome,leads⟩ := (dispatch_leads g id true [] installed fuel).1 0 run message run₁ exit₁ processed
      cases exit₁ with
      | panicked =>
        simp only [processed,Option.some.injEq,Prod.mk.injEq] at ended
        obtain ⟨rfl,rfl⟩ := ended
        obtain ⟨inner,same⟩ := outcome
        exact ⟨next,⟨[],inner,same⟩,leads⟩
      | returned =>
        obtain rfl : next = stage id true [] 0 .check := outcome
        have checked := leads.trans (check_calls g id [] run₁)
        simp only [processed,process_batch,ite_self,Option.some.injEq,Prod.mk.injEq] at ended
        obtain ⟨rfl,rfl⟩ := ended
        exact ⟨none,rfl,by simpa using checked⟩
  | cons later rest ih =>
    rw [process_batch] at ended
    cases processed : process_single_message executor fuel run id message with
    | none => simp [processed] at ended
    | some inner =>
      obtain ⟨run₁,exit₁⟩ := inner
      obtain ⟨next,outcome,leads⟩ :=
        (dispatch_leads g id true (later :: rest) installed fuel).1 0 run message run₁ exit₁ processed
      cases exit₁ with
      | panicked =>
        simp only [processed,Option.some.injEq,Prod.mk.injEq] at ended
        obtain ⟨rfl,rfl⟩ := ended
        obtain ⟨inner,same⟩ := outcome
        exact ⟨next,⟨later :: rest,inner,same⟩,leads⟩
      | returned =>
        obtain rfl : next = stage id true (later :: rest) 0 .check := outcome
        have checked := leads.trans (check_calls g id (later :: rest) run₁)
        simp only [processed] at ended
        by_cases dead : no_longer_viable run₁.registry id = true
        · rw [if_pos dead] at ended checked
          cases ended
          exact ⟨none,rfl,checked⟩
        · rw [if_neg dead] at ended checked
          obtain ⟨next,finished,more⟩ := ih ended
          exact ⟨next,finished,checked.trans more⟩

theorem batch_returns {rest : List Message} {message : Message} {run : Run σ} {n : Nat} {last : Conf σ}
    (ended : last.next = none)
    (calls : Calls config executor (at_ g id run (stage id true rest 0 (.get_state message))) n last) :
    ∃ fuel run' exit, process_batch executor fuel run id (message :: rest) = some (run',exit) := by
  induction rest generalizing message run n with
  | nil =>
    obtain ⟨fuel,run₁,exit₁,processed⟩ := (dispatch_returns g id true [] installed n).1 0 run message last ended calls
    refine ⟨fuel,run₁,exit₁,?_⟩
    rw [process_batch,processed]
    cases exit₁ <;> simp [process_batch]
  | cons later rest ih =>
    obtain ⟨fuel,run₁,exit₁,processed⟩ :=
      (dispatch_returns g id true (later :: rest) installed n).1 0 run message last ended calls
    cases exit₁ with
    | panicked => exact ⟨fuel,run₁,.panicked,by rw [process_batch,processed]⟩
    | returned =>
      obtain ⟨next,outcome,leads⟩ :=
        (dispatch_leads g id true (later :: rest) installed fuel).1 0 run message run₁ _ processed
      obtain rfl : next = stage id true (later :: rest) 0 .check := outcome
      by_cases dead : no_longer_viable run₁.registry id = true
      · exact ⟨fuel,run₁,.returned,by rw [process_batch,processed]; simp only [dead,if_true]⟩
      · have checked := leads.trans (check_calls g id (later :: rest) run₁)
        rw [if_neg dead] at checked
        obtain ⟨m,-,remaining⟩ := checked.rest calls ended
        obtain ⟨fuel',run',exit,returned⟩ := ih remaining
        refine ⟨max fuel fuel',run',exit,?_⟩
        rw [process_batch,fuel_le (Nat.le_max_left fuel fuel') processed]
        simp only [dead,if_false,Bool.false_eq_true]
        exact batch_le id (Nat.le_max_right fuel fuel') returned

/-- The calls follow the dispatch of a task. -/
theorem task_leads {task : Task} {fuel : Nat} {run run' : Run σ}
    (ended : process_task_safe executor fuel run task = some run') :
    Leads config executor (at_ g task.actor_id run (some (.start task))) (at_ g task.actor_id run' none) := by
  -- A panic is caught after the messages.
  have caught : ∀ {run₁ exit next} (batch), process_task executor fuel run task = some (run₁,exit) →
      Finished task.actor_id batch exit next →
      Leads config executor (at_ g task.actor_id run (some (.start task))) (at_ g task.actor_id run₁ next) →
      Leads config executor (at_ g task.actor_id run (some (.start task))) (at_ g task.actor_id run' none) := by
    intro run₁ exit next batch processed finished leads
    rw [process_task_safe,processed] at ended
    cases exit with
    | returned =>
      cases ended
      obtain rfl : next = none := finished
      exact leads
    | panicked =>
      cases ended
      obtain ⟨rest,inner,rfl⟩ := finished
      exact leads.trans (panic_calls g task.actor_id batch rest inner run₁)
  cases processed : process_task executor fuel run task with
  | none => simp [process_task_safe,processed] at ended
  | some result =>
    obtain ⟨run₁,exit⟩ := result
    have messages := processed
    unfold process_task at messages
    by_cases single : task.additional_messages.isEmpty = true
    · rw [if_pos single] at messages
      obtain ⟨next,outcome,leads⟩ :=
        (dispatch_leads g task.actor_id false task.additional_messages installed fuel).1 0 run _ run₁ exit messages
      have start : stage task.actor_id false task.additional_messages 0 (.get_state task.message) = some (.start task) := by
        simp [stage,Job.start,single]
      rw [start] at leads
      refine caught false processed ?_ leads
      cases exit with
      | returned => exact outcome
      | panicked =>
        obtain ⟨inner,same⟩ := outcome
        exact ⟨_,inner,same⟩
    · rw [if_neg single] at messages
      obtain ⟨next,finished,leads⟩ := batch_leads g task.actor_id installed fuel messages
      have start : stage task.actor_id true task.additional_messages 0 (.get_state task.message) = some (.start task) := by
        simp [stage,Job.start,single]
      rw [start] at leads
      exact caught true processed finished leads

theorem task_returns {task : Task} {run : Run σ} {n : Nat} {last : Conf σ} (ended : last.next = none)
    (calls : Calls config executor (at_ g task.actor_id run (some (.start task))) n last) :
    ∃ fuel run', process_task_safe executor fuel run task = some run' := by
  have returns : ∃ fuel run₁ exit, process_task executor fuel run task = some (run₁,exit) := by
    by_cases single : task.additional_messages.isEmpty = true
    · have start : stage task.actor_id false task.additional_messages 0 (.get_state task.message) = some (.start task) := by
        simp [stage,Job.start,single]
      rw [← start] at calls
      obtain ⟨fuel,run₁,exit,returned⟩ := (dispatch_returns g task.actor_id false _ installed n).1 0 run _ last ended calls
      exact ⟨fuel,run₁,exit,by rw [process_task,if_pos single,returned]⟩
    · have start : stage task.actor_id true task.additional_messages 0 (.get_state task.message) = some (.start task) := by
        simp [stage,Job.start,single]
      rw [← start] at calls
      obtain ⟨fuel,run₁,exit,returned⟩ := batch_returns g task.actor_id installed ended calls
      exact ⟨fuel,run₁,exit,by rw [process_task,if_neg single]; exact returned⟩
  obtain ⟨fuel,run₁,exit,returned⟩ := returns
  cases exit with
  | returned => exact ⟨fuel,run₁,by rw [process_task_safe,returned]⟩
  | panicked => exact ⟨fuel,_,by rw [process_task_safe,returned]⟩

end

/-- A worker that has just taken a task. -/
theorem at_start (g : Shared) (state : σ) (task : Task) :
    at_ g task.actor_id { registry := g.registry, executor := state } (some (.start task)) =
      { shared := g, executor := state, next := some (.start task) } := by
  simp [at_,place,executedOf,requeuedOf]

/-- The calls of a worker that nobody interrupts come to an end exactly where
    `process_task_safe` returns, with its registry, its executor and what it has
    executed and sent back; when it does not return, they never end. -/
theorem calls_are_dispatch {config : SchedulerConfig} (executor : Option (Executor σ))
    (installed : config.executor = executor.isSome) (g : Shared) (state : σ) (task : Task) (last : Conf σ)
    (ended : last.next = none) :
    (∃ n, Calls config executor { shared := g, executor := state, next := some (.start task) } n last) ↔
      ∃ fuel run, process_task_safe executor fuel { registry := g.registry, executor := state } task = some run ∧
        last = at_ g task.actor_id run none := by
  rw [← at_start]
  constructor
  · rintro ⟨n,calls⟩
    obtain ⟨fuel,run,returned⟩ := task_returns g installed ended calls
    obtain ⟨m,-,remaining⟩ := (task_leads g installed returned).rest calls ended
    cases m with
    | zero =>
      cases remaining
      exact ⟨fuel,run,returned,rfl⟩
    | succ m =>
      obtain ⟨_,_,-,more,-⟩ := remaining.head
      simp [call,at_] at more
  · rintro ⟨fuel,run,returned,rfl⟩
    obtain ⟨n,calls⟩ := task_leads g installed returned
    exact ⟨n + 1,calls⟩

/-- A new actor, and a task that starts it. -/
def newActor : Shared := { registry := ((ActorRegistry.with_mailbox_config {}).register_named ⟨1⟩ none).1 }
def startTask : Task :=
  { actor_id := ⟨1⟩, message := { sender := none, payload := .Start, priority := .Normal }, priority := .Normal }

theorem calls_are_dispatch_started : ∃ n last, last.next = none ∧
    Calls {} (none : Option (Executor Unit)) { shared := newActor, executor := (), next := some (.start startTask) } n last ∧
    last.shared.registry.get_state ⟨1⟩ = some .Running := by
  have seen : (process_task_safe (none : Option (Executor Unit)) 1 { registry := newActor.registry, executor := () }
      startTask).map (fun run => run.registry.get_state ⟨1⟩) = some (some .Running) := by decide +kernel
  obtain ⟨run,returned,state⟩ := Option.map_eq_some_iff.mp seen
  have absent : ({} : SchedulerConfig).executor = (none : Option (Executor Unit)).isSome := rfl
  obtain ⟨n,calls⟩ := (calls_are_dispatch (none : Option (Executor Unit)) absent newActor () startTask
    (at_ newActor startTask.actor_id run none) rfl).mpr ⟨1,run,returned,rfl⟩
  exact ⟨n,_,rfl,calls,state⟩

end ActorKit.SmallSteps
