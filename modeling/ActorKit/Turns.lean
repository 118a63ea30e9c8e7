import ActorKit.Batches
import ActorKit.MailboxCalls

/-!
# One actor and its drain as turns

Dispatching the messages of one actor only touches its entry and its mailbox.
Here the actor stands alone, and the nested drains of the source are one loop: a
drain inside a drain leaves an empty mailbox, so that the outer one ends with it.
The dispatch of the registry ends exactly when this loop ends, with the same
result.
-/

namespace ActorKit.Turns
open ActorKit.mailbox ActorKit.registry ActorKit.queue ActorKit.scheduler ActorKit.dispatch ActorKit.Batches ActorKit.MailboxCalls
variable {σ : Type}

/-- What the registry holds of one actor. -/
structure Actor where
  state : ActorState
  processed : Nat
  mailbox : Mailbox
deriving DecidableEq, Repr

/-- One actor while its messages are dispatched. -/
structure Scene (σ : Type) where
  actor : Actor
  executor : σ
  calls : List (Message × Execution) := []
  seen : List (ActorState × Message) := []

namespace Scene

def change (x : Scene σ) (state : Option ActorState) : Scene σ :=
  { x with actor := { x.actor with state := state.getD x.actor.state } }

def onMailbox (x : Scene σ) (f : Mailbox → Mailbox) : Scene σ :=
  { x with actor := { x.actor with mailbox := f x.actor.mailbox } }

def release (x : Scene σ) : Scene σ := x.onMailbox (fun mb => mb.try_recv.1)

def count (x : Scene σ) : Scene σ := { x with actor := { x.actor with processed := fetch_add x.actor.processed 1 } }.release

def fail (x : Scene σ) : Scene σ := (x.change (some .Failed)).onMailbox Mailbox.clear

def saw (x : Scene σ) (message : Message) : Scene σ := { x with seen := x.seen ++ [(x.actor.state,message)] }

def called (x : Scene σ) (state : σ) (message : Message) (execution : Execution) : Scene σ :=
  { x with executor := state, calls := x.calls ++ [(message,execution)] }

end Scene

/-- What follows the dispatch of a message. -/
inductive Next where
  | done
  | drain
  | panic
deriving DecidableEq, Repr

/-- What the answer of the executor does. -/
def Scene.answered (x : Scene σ) (message : Message) : Execution → Scene σ × Next
  | .returns .Success => ((x.change (success_change message.payload)).count,.done)
  | .returns .FuelExhausted => (x.fail,.done)
  | .returns .Failed => (x.fail,.done)
  | .returns .NotReady => ((x.change (state_change message.payload)).count,.done)
  | .panics => (x,.panic)

section
variable (executor : Option (Executor σ)) (id : ActorId)

/-- A message of an actor that is running or being created. -/
def execute (x : Scene σ) (message : Message) : Scene σ × Next :=
  match executor with
  | none => ((x.change (state_change message.payload)).count,.done)
  | some call =>
    let answer := call x.executor id message
    (x.called answer.1 message answer.2).answered message answer.2

/-- One message, without the drain that may follow it. -/
def dispatch (x : Scene σ) (message : Message) : Scene σ × Next :=
  match x.actor.state with
  | .Running | .Creating => execute executor id (x.saw message) message
  | .Suspended =>
    if is_control message.payload then
      let x := ((x.saw message).change (state_change message.payload)).release
      match x.actor.state with
      | .Running | .Creating => (x,.drain)
      | .Suspended | .Stopped | .Failed => (x,.done)
    else ((x.saw message).onMailbox (fun mb => (mb.try_send message).1),.done)
  | .Stopped | .Failed => (x,.done)

/-- The message a drain takes next. -/
def Scene.pop (x : Scene σ) : Option (Message × Scene σ) :=
  if x.actor.mailbox.is_empty then none
  else match x.actor.mailbox.try_recv.2 with
    | some queued => some (queued,x.release)
    | none => none

/-- The drain, turn by turn. -/
def loop : Nat → Scene σ → Option (Scene σ × Exit)
  | 0,_ => none
  | n + 1,x => match x.pop with
    | none => some (x,.returned)
    | some (queued,x) => match dispatch executor id x queued with
      | (x,.panic) => some (x,.panicked)
      | (x,.done) => loop n x
      | (x,.drain) => loop n x

/-- One message with the drain that may follow it. -/
def process (n : Nat) (x : Scene σ) (message : Message) : Option (Scene σ × Exit) :=
  match dispatch executor id x message with
  | (x,.done) => some (x,.returned)
  | (x,.panic) => some (x,.panicked)
  | (x,.drain) => loop executor id n x

/-- Messages one after the other, with panics contained. -/
def serve (n : Nat) (x : Scene σ) : List Message → Option (Scene σ)
  | [] => some x
  | message :: rest => match process executor id n x message with
    | some (x,.returned) => serve n x rest
    | some (x,.panicked) => serve n x.fail rest
    | none => none

end

/-! ## The actor inside the registry -/

/-- The registry with what it holds of one actor replaced. -/
def put (r : ActorRegistry) (id : ActorId) (a : Actor) : ActorRegistry :=
  { r with
    by_id := r.by_id.modify id (fun e => { e with state := a.state, processed := a.processed })
    mailboxes := r.mailboxes.modify id (fun _ => a.mailbox) }

/-- The actor is registered and has its mailbox. -/
structure Known (r : ActorRegistry) (id : ActorId) : Prop where
  entry : (r.by_id.lookup id).isSome = true
  mailbox : (r.mailboxes.lookup id).isSome = true

def Scene.inside (x : Scene σ) (r : ActorRegistry) (id : ActorId) : Run σ :=
  { registry := put r id x.actor, executor := x.executor, calls := x.calls, seen := x.seen }

section
variable {r : ActorRegistry} {id : ActorId} (known : Known r id) (a : Actor)
include known

theorem get_state_put : (put r id a).get_state id = some a.state := by
  obtain ⟨e,found⟩ := Option.isSome_iff_exists.mp known.entry
  simp [ActorRegistry.get_state,put,found]

theorem get_mailbox_put : (put r id a).get_mailbox id = some a.mailbox := by
  obtain ⟨e,entry⟩ := Option.isSome_iff_exists.mp known.entry
  obtain ⟨mb,found⟩ := Option.isSome_iff_exists.mp known.mailbox
  simp [ActorRegistry.get_mailbox,put,entry,found]

theorem set_state_put (state : ActorState) : ((put r id a).set_state id state).1 = put r id { a with state } := by
  obtain ⟨e,found⟩ := Option.isSome_iff_exists.mp known.entry
  simp [ActorRegistry.set_state,put,found]

omit known in
theorem record_put : (put r id a).record_processed id = put r id { a with processed := fetch_add a.processed 1 } := by
  simp [ActorRegistry.record_processed,put]

omit known in
theorem on_mailbox_put (f : Mailbox → Mailbox) : (put r id a).on_mailbox id f = put r id { a with mailbox := f a.mailbox } := by
  simp [ActorRegistry.on_mailbox,put]

theorem state_change_put (message : Message) :
    handle_state_change_for id message (put r id a) =
      put r id { a with state := (state_change message.payload).getD a.state } := by
  unfold handle_state_change_for
  cases state_change message.payload with
  | none => rfl
  | some state => exact set_state_put known a state

theorem success_put (message : Message) :
    handle_success id message (put r id a) = put r id { a with state := (success_change message.payload).getD a.state } := by
  unfold handle_success
  cases success_change message.payload with
  | none => rfl
  | some state => exact set_state_put known a state

theorem release_put : release_slot id (put r id a) = put r id { a with mailbox := a.mailbox.try_recv.1 } := by
  rw [release_slot,get_mailbox_put known]
  exact on_mailbox_put a _

theorem fail_put : fail_actor id (put r id a) = put r id { a with state := .Failed, mailbox := a.mailbox.clear } := by
  rw [fail_actor,set_state_put known]
  simp only [get_mailbox_put known]
  exact on_mailbox_put _ _

end

/-! ## More fuel changes nothing -/

section
variable {executor : Option (Executor σ)}

theorem fuel_succ (fuel : Nat) :
    (∀ run id message result, process_single_message executor fuel run id message = some result →
      process_single_message executor (fuel + 1) run id message = some result) ∧
    (∀ run id result, drain executor fuel run id = some result → drain executor (fuel + 1) run id = some result) := by
  induction fuel with
  | zero =>
    constructor
    · intro _ _ _ _ ended
      cases ended
    · intro _ _ _ ended
      cases ended
  | succ fuel ih =>
    constructor
    · intro run id message result ended
      rw [process_single_message] at ended ⊢
      cases state : run.registry.get_state id with
      | none =>
        simp only [state] at ended ⊢
        exact ended
      | some current =>
        cases current with
        | Suspended =>
          simp only [state] at ended ⊢
          split at ended
          · next control =>
            simp only [control,if_true]
            split at ended
            · exact ih.2 _ _ _ ended
            · exact ih.2 _ _ _ ended
            all_goals exact ended
          · next ordinary =>
            simp only [ordinary,if_false,Bool.false_eq_true]
            exact ended
        | _ =>
          simp only [state] at ended ⊢
          exact ended
    · intro run id result ended
      rw [drain] at ended ⊢
      split at ended
      · exact ended
      · split at ended
        · next empty =>
          simp only [empty,if_true]
          exact ended
        · next more =>
          simp only [more,if_false,Bool.false_eq_true] at ended ⊢
          split at ended
          · exact ended
          · split at ended
            · next inner =>
              simp only [ih.1 _ _ _ _ inner]
              exact ih.2 _ _ _ ended
            · next inner =>
              simp only [ih.1 _ _ _ _ inner]
              exact ended
            · cases ended

theorem fuel_le {fuel fuel' : Nat} (less : fuel ≤ fuel') {run : Run σ} {id : ActorId} {message : Message}
    {result : Run σ × Exit} (ended : process_single_message executor fuel run id message = some result) :
    process_single_message executor fuel' run id message = some result := by
  induction less with
  | refl => exact ended
  | step _ ih => exact (fuel_succ _).1 _ _ _ _ ih

theorem loop_le {id : ActorId} {n n' : Nat} (less : n ≤ n') {x : Scene σ} {result : Scene σ × Exit}
    (ended : loop executor id n x = some result) : loop executor id n' x = some result := by
  induction n generalizing n' x with
  | zero => cases ended
  | succ n ih =>
    obtain ⟨k,rfl⟩ : ∃ k, n' = k + 1 := ⟨n' - 1,by omega⟩
    rw [loop] at ended ⊢
    split at ended
    · exact ended
    · split at ended
      · exact ended
      · exact ih (by omega) ended
      · exact ih (by omega) ended

theorem process_le {id : ActorId} {n n' : Nat} (less : n ≤ n') {x : Scene σ} {message : Message}
    {result : Scene σ × Exit} (ended : process executor id n x message = some result) :
    process executor id n' x message = some result := by
  unfold process at ended ⊢
  split at ended
  · exact ended
  · exact ended
  · exact loop_le less ended

theorem serve_le {id : ActorId} {n n' : Nat} (less : n ≤ n') {x x' : Scene σ} {messages : List Message}
    (ended : serve executor id n x messages = some x') : serve executor id n' x messages = some x' := by
  induction messages generalizing x with
  | nil => exact ended
  | cons message rest ih =>
    rw [serve] at ended ⊢
    split at ended
    · next processed => simp only [process_le less processed]; exact ih ended
    · next processed => simp only [process_le less processed]; exact ih ended
    · cases ended

theorem tasks_le {id : ActorId} {fuel fuel' : Nat} (less : fuel ≤ fuel') {run run' : Run σ} {messages : List Message}
    (ended : process_tasks executor fuel run (messages.map (single id)) = some run') :
    process_tasks executor fuel' run (messages.map (single id)) = some run' := by
  induction messages generalizing run with
  | nil => exact ended
  | cons message rest ih =>
    rw [List.map_cons,process_tasks,single_contained] at ended ⊢
    cases processed : process_single_message executor fuel run id message with
    | none => simp [processed,contain] at ended
    | some result =>
      obtain ⟨after,exit⟩ := result
      rw [processed] at ended
      rw [fuel_le less processed]
      cases exit with
      | returned => exact ih ended
      | panicked => exact ih ended

end

/-! ## Dispatch and loop -/

theorem try_recv_none {mb : Mailbox} (none : mb.try_recv.2 = none) : mb.try_recv.1 = mb := by
  unfold Mailbox.try_recv at none ⊢
  split at none
  · cases none
  · split at none
    · cases none
    · rfl

/-- Executing a message never starts a drain. -/
theorem execute_no_drain (executor : Option (Executor σ)) (id : ActorId) (x : Scene σ) (message : Message) :
    (execute executor id x message).2 ≠ .drain := by
  unfold execute
  cases executor with
  | none => exact Next.noConfusion
  | some call =>
    simp only
    match (call x.executor id message).2 with
    | .returns .Success | .returns .NotReady => exact Next.noConfusion
    | .returns .FuelExhausted | .returns .Failed => exact Next.noConfusion
    | .panics => exact Next.noConfusion

section
variable {executor : Option (Executor σ)} {r : ActorRegistry} {id : ActorId} (known : Known r id)
include known

theorem count_put (a : Actor) :
    count_message id (put r id a) =
      put r id { a with processed := fetch_add a.processed 1, mailbox := a.mailbox.try_recv.1 } := by
  rw [count_message,record_put,release_put known]

theorem requeue_put (a : Actor) (message : Message) :
    requeue_message id message (put r id a) = put r id { a with mailbox := (a.mailbox.try_send message).1 } := by
  rw [requeue_message,get_mailbox_put known]
  exact on_mailbox_put a _

/-- Executing a message inside the registry. -/
theorem execute_inside (x : Scene σ) (message : Message) :
    execute_message executor (x.inside r id) id message =
      match execute executor id x message with
      | (x,.panic) => (x.inside r id,.panicked)
      | (x,.done) => (x.inside r id,.returned)
      | (x,.drain) => (x.inside r id,.returned) := by
  cases executor with
  | none =>
    simp only [execute_message,execute,Run.update,Scene.inside,state_change_put known,count_put known]
    rfl
  | some call =>
    simp only [execute_message,execute]
    rw [show (x.inside r id).executor = x.executor from rfl]
    generalize call x.executor id message = called
    obtain ⟨state,outcome⟩ := called
    cases outcome with
    | panics => rfl
    | returns result =>
      cases result with
      | Success =>
        simp only [Run.update,Scene.inside,success_put known,count_put known]
        rfl
      | NotReady =>
        simp only [Run.update,Scene.inside,state_change_put known,count_put known]
        rfl
      | FuelExhausted =>
        simp only [Run.update,Scene.inside,fail_put known]
        rfl
      | Failed =>
        simp only [Run.update,Scene.inside,fail_put known]
        rfl

/-- Dispatching a message inside the registry. -/
theorem process_inside (fuel : Nat) (x : Scene σ) (message : Message) :
    process_single_message executor (fuel + 1) (x.inside r id) id message =
      match dispatch executor id x message with
      | (x,.done) => some (x.inside r id,.returned)
      | (x,.panic) => some (x.inside r id,.panicked)
      | (x,.drain) => drain executor fuel (x.inside r id) id := by
  have found : (x.inside r id).registry.get_state id = some x.actor.state := get_state_put known x.actor
  have executes : ∀ state, x.actor.state = state →
      some (execute_message executor ((x.inside r id).saw state message) id message) =
        match execute executor id (x.saw message) message with
        | (x,.done) => some (x.inside r id,.returned)
        | (x,.panic) => some (x.inside r id,.panicked)
        | (x,.drain) => drain executor fuel (x.inside r id) id := by
    rintro state rfl
    have never := execute_no_drain executor id (x.saw message) message
    rw [show (x.inside r id).saw x.actor.state message = (x.saw message).inside r id from rfl,execute_inside known]
    match execute executor id (x.saw message) message,never with
    | (y,.done),_ => rfl
    | (y,.panic),_ => rfl
    | (y,.drain),never => exact absurd rfl never
  rw [process_single_message,found]
  cases state : x.actor.state with
  | Running => simp only [dispatch,state,executes _ state]
  | Creating => simp only [dispatch,state,executes _ state]
  | Stopped => simp only [dispatch,state]
  | Failed => simp only [dispatch,state]
  | Suspended =>
    have sees : (x.inside r id).saw .Suspended message = (x.saw message).inside r id := by
      rw [← state]
      rfl
    simp only [dispatch,state,sees]
    by_cases control : is_control message.payload = true
    · have changed : ((x.saw message).inside r id).update
          (fun r => release_slot id (handle_state_change_for id message r)) =
          (((x.saw message).change (state_change message.payload)).release).inside r id := by
        simp only [Run.update,Scene.inside,state_change_put known,release_put known]
        rfl
      simp only [control,if_true,changed]
      generalize ((x.saw message).change (state_change message.payload)).release = y
      have after : (y.inside r id).registry.get_state id = some y.actor.state := get_state_put known y.actor
      rw [after]
      cases y.actor.state <;> rfl
    · have sent : ((x.saw message).inside r id).update (requeue_message id message) =
          ((x.saw message).onMailbox (fun mb => (mb.try_send message).1)).inside r id := by
        simp only [Run.update,Scene.inside,requeue_put known]
        rfl
      simp only [control,if_false,Bool.false_eq_true,sent]

theorem drain_inside (fuel : Nat) (x : Scene σ) :
    drain executor (fuel + 1) (x.inside r id) id =
      match x.pop with
      | none => some (x.inside r id,.returned)
      | some (queued,x) => match process_single_message executor fuel (x.inside r id) id queued with
        | some (run,.returned) => drain executor fuel run id
        | some (run,.panicked) => some (run,.panicked)
        | none => none := by
  have found : (x.inside r id).registry.get_mailbox id = some x.actor.mailbox := get_mailbox_put known x.actor
  have released : (x.inside r id).update (fun r => r.on_mailbox id (fun mb => mb.try_recv.1)) = x.release.inside r id := by
    simp only [Run.update,Scene.inside,on_mailbox_put]
    rfl
  rw [drain,found]
  simp only [released,Scene.pop]
  by_cases empty : x.actor.mailbox.is_empty = true
  · simp only [empty,if_true]
  · simp only [empty,if_false,Bool.false_eq_true]
    cases received : x.actor.mailbox.try_recv.2 with
    | some queued => rfl
    | none =>
      have same : x.release = x := by
        simp only [Scene.release,Scene.onMailbox,try_recv_none received]
      rw [same]

omit known in
/-- A drain that returns leaves nothing to take. -/
theorem loop_drained {n : Nat} {x x' : Scene σ} (ended : loop executor id n x = some (x',.returned)) : x'.pop = none := by
  induction n generalizing x with
  | zero => cases ended
  | succ n ih =>
    rw [loop] at ended
    split at ended
    · next empty =>
      cases ended
      exact empty
    · split at ended
      · cases ended
      · exact ih ended
      · exact ih ended

theorem drain_drained (fuel : Nat) {x : Scene σ} (empty : x.pop = none) :
    drain executor (fuel + 1) (x.inside r id) id = some (x.inside r id,.returned) := by
  rw [drain_inside known,empty]

/-- A drain of the source is a loop of turns. -/
theorem loop_of_drain {fuel : Nat} {x : Scene σ} {run : Run σ} {exit : Exit}
    (ended : drain executor fuel (x.inside r id) id = some (run,exit)) :
    ∃ n x', loop executor id n x = some (x',exit) ∧ run = x'.inside r id := by
  induction fuel using Nat.strong_induction_on generalizing x run exit with
  | h fuel ih =>
    match fuel with
    | 0 => cases ended
    | fuel + 1 =>
      rw [drain_inside known] at ended
      cases popped : x.pop with
      | none =>
        simp only [popped] at ended
        cases ended
        exact ⟨1,x,by rw [loop,popped],rfl⟩
      | some taken =>
        obtain ⟨queued,y⟩ := taken
        simp only [popped] at ended
        match fuel with
        | 0 => cases ended
        | fuel + 1 =>
          rw [process_inside known] at ended
          match dispatched : dispatch executor id y queued with
          | (z,.done) =>
            simp only [dispatched] at ended
            obtain ⟨n,x',runs,same⟩ := ih (fuel + 1) (by omega) ended
            exact ⟨n + 1,x',by simp only [loop,popped,dispatched,runs],same⟩
          | (z,.panic) =>
            simp only [dispatched] at ended
            cases ended
            exact ⟨1,z,by simp only [loop,popped,dispatched],rfl⟩
          | (z,.drain) =>
            simp only [dispatched] at ended
            match inner : drain executor fuel (z.inside r id) id with
            | none => simp [inner] at ended
            | some (run',.panicked) =>
              simp only [inner] at ended
              cases ended
              obtain ⟨n,x',runs,same⟩ := ih fuel (by omega) inner
              exact ⟨n + 1,x',by simp only [loop,popped,dispatched,runs],same⟩
            | some (run',.returned) =>
              -- The inner drain has emptied the mailbox, so the outer one ends.
              obtain ⟨n,x',runs,rfl⟩ := ih fuel (by omega) inner
              simp only [inner,drain_drained known fuel (loop_drained runs)] at ended
              cases ended
              exact ⟨n + 1,x',by simp only [loop,popped,dispatched,runs],rfl⟩

theorem drain_of_loop {n : Nat} {x x' : Scene σ} {exit : Exit} (ended : loop executor id n x = some (x',exit)) :
    ∃ fuel, drain executor (fuel + 1) (x.inside r id) id = some (x'.inside r id,exit) := by
  induction n generalizing x with
  | zero => cases ended
  | succ n ih =>
    rw [loop] at ended
    cases popped : x.pop with
    | none =>
      simp only [popped] at ended
      cases ended
      exact ⟨0,drain_drained known 0 popped⟩
    | some taken =>
      obtain ⟨queued,y⟩ := taken
      simp only [popped] at ended
      match dispatched : dispatch executor id y queued with
      | (z,.panic) =>
        simp only [dispatched] at ended
        cases ended
        exact ⟨1,by simp only [drain_inside known,popped,process_inside known,dispatched]⟩
      | (z,.done) =>
        simp only [dispatched] at ended
        obtain ⟨fuel,runs⟩ := ih ended
        exact ⟨fuel + 1,by simp only [drain_inside known (fuel + 1),popped,process_inside known,dispatched,runs]⟩
      | (z,.drain) =>
        simp only [dispatched] at ended
        obtain ⟨fuel,runs⟩ := ih ended
        refine ⟨fuel + 2,?_⟩
        simp only [drain_inside known (fuel + 2),popped,process_inside known,dispatched,runs]
        cases exit with
        | panicked => rfl
        | returned => exact drain_drained known (fuel + 1) (loop_drained ended)

/-- The source processes a message exactly as the turns say. -/
theorem process_iff {x : Scene σ} {message : Message} {run : Run σ} {exit : Exit} :
    (∃ fuel, process_single_message executor fuel (x.inside r id) id message = some (run,exit)) ↔
    ∃ n x', process executor id n x message = some (x',exit) ∧ run = x'.inside r id := by
  constructor
  · rintro ⟨fuel,ended⟩
    match fuel with
    | 0 => cases ended
    | fuel + 1 =>
      rw [process_inside known] at ended
      match dispatched : dispatch executor id x message with
      | (z,.done) =>
        simp only [dispatched] at ended
        cases ended
        exact ⟨0,z,by simp only [process,dispatched],rfl⟩
      | (z,.panic) =>
        simp only [dispatched] at ended
        cases ended
        exact ⟨0,z,by simp only [process,dispatched],rfl⟩
      | (z,.drain) =>
        simp only [dispatched] at ended
        obtain ⟨n,x',runs,same⟩ := loop_of_drain known ended
        exact ⟨n,x',by simp only [process,dispatched,runs],same⟩
  · rintro ⟨n,x',ended,rfl⟩
    unfold process at ended
    match dispatched : dispatch executor id x message with
    | (z,.done) =>
      simp only [dispatched] at ended
      cases ended
      exact ⟨1,by simp only [process_inside known,dispatched]⟩
    | (z,.panic) =>
      simp only [dispatched] at ended
      cases ended
      exact ⟨1,by simp only [process_inside known,dispatched]⟩
    | (z,.drain) =>
      simp only [dispatched] at ended
      obtain ⟨fuel,runs⟩ := drain_of_loop known ended
      exact ⟨fuel + 2,by simp only [process_inside known,dispatched,runs]⟩

theorem fail_inside (x : Scene σ) : (x.inside r id).update (fail_actor id) = x.fail.inside r id := by
  simp only [Run.update,Scene.inside,fail_put known]
  rfl

/-- Single messages one after the other. -/
theorem serve_iff {x : Scene σ} {messages : List Message} {run : Run σ} :
    (∃ fuel, process_tasks executor fuel (x.inside r id) (messages.map (single id)) = some run) ↔
    ∃ n x', serve executor id n x messages = some x' ∧ run = x'.inside r id := by
  induction messages generalizing x with
  | nil =>
    constructor
    · rintro ⟨fuel,ended⟩
      cases ended
      exact ⟨0,x,rfl,rfl⟩
    · rintro ⟨n,x',ended,rfl⟩
      cases ended
      exact ⟨0,rfl⟩
  | cons message rest ih =>
    constructor
    · rintro ⟨fuel,ended⟩
      rw [List.map_cons,process_tasks,single_contained] at ended
      cases processed : process_single_message executor fuel (x.inside r id) id message with
      | none => simp [processed,contain] at ended
      | some result =>
        obtain ⟨after,exit⟩ := result
        obtain ⟨n,y,runs,rfl⟩ := (process_iff known).mp ⟨fuel,processed⟩
        rw [processed] at ended
        cases exit with
        | returned =>
          obtain ⟨k,x',serves,same⟩ := ih.mp ⟨fuel,ended⟩
          refine ⟨max n k,x',?_,same⟩
          simp only [serve,process_le (Nat.le_max_left n k) runs]
          exact serve_le (Nat.le_max_right n k) serves
        | panicked =>
          simp only [contain,fail_inside known] at ended
          obtain ⟨k,x',serves,same⟩ := ih.mp ⟨fuel,ended⟩
          refine ⟨max n k,x',?_,same⟩
          simp only [serve,process_le (Nat.le_max_left n k) runs]
          exact serve_le (Nat.le_max_right n k) serves
    · rintro ⟨n,x',ended,rfl⟩
      rw [serve] at ended
      split at ended
      · next y processed =>
        obtain ⟨fuel,runs⟩ := (process_iff known).mpr ⟨n,y,processed,rfl⟩
        obtain ⟨fuel',tasks⟩ := ih.mpr ⟨n,x',ended,rfl⟩
        refine ⟨max fuel fuel',?_⟩
        rw [List.map_cons,process_tasks,single_contained,fuel_le (Nat.le_max_left fuel fuel') runs]
        exact tasks_le (Nat.le_max_right fuel fuel') tasks
      · next y processed =>
        obtain ⟨fuel,runs⟩ := (process_iff known).mpr ⟨n,y,processed,rfl⟩
        obtain ⟨fuel',tasks⟩ := ih.mpr ⟨n,x',ended,rfl⟩
        refine ⟨max fuel fuel',?_⟩
        rw [List.map_cons,process_tasks,single_contained,fuel_le (Nat.le_max_left fuel fuel') runs]
        simp only [contain,fail_inside known]
        exact tasks_le (Nat.le_max_right fuel fuel') tasks
      · cases ended

end

/-! ## What holds between the beginning and the end -/

/-- Some message makes the executor panic. -/
def Panics (executor : Option (Executor σ)) (id : ActorId) : Prop :=
  ∃ x message, (dispatch executor id x message).2 = .panic

/-- A relation that every part of a dispatch keeps up. -/
structure KeepsUp (executor : Option (Executor σ)) (id : ActorId) (R : Scene σ → Scene σ → Prop) : Prop where
  refl : ∀ x, R x x
  trans : ∀ {x y z}, R x y → R y z → R x z
  dispatches : ∀ x message, R x (dispatch executor id x message).1
  releases : ∀ x, R x x.release
  fails : Panics executor id → ∀ x, R x x.fail

theorem pop_release {x y : Scene σ} {queued : Message} (popped : x.pop = some (queued,y)) : y = x.release := by
  unfold Scene.pop at popped
  split at popped
  · cases popped
  · split at popped
    · cases popped
      rfl
    · cases popped

section
variable {executor : Option (Executor σ)} {id : ActorId} {n : Nat} {x y : Scene σ}

theorem panics_of_loop (ended : loop executor id n x = some (y,.panicked)) : Panics executor id := by
  induction n generalizing x with
  | zero => cases ended
  | succ n ih =>
    rw [loop] at ended
    split at ended
    · cases ended
    · next queued x₁ popped =>
      split at ended
      · next dispatched => exact ⟨x₁,queued,by rw [dispatched]⟩
      · exact ih ended
      · exact ih ended

theorem panics_of_process {message : Message} (ended : process executor id n x message = some (y,.panicked)) :
    Panics executor id := by
  unfold process at ended
  split at ended
  · cases ended
  · next dispatched => exact ⟨x,message,by rw [dispatched]⟩
  · exact panics_of_loop ended

end

namespace KeepsUp
variable {executor : Option (Executor σ)} {id : ActorId} {R : Scene σ → Scene σ → Prop} (keeps : KeepsUp executor id R)
  {n : Nat} {x y : Scene σ} {message : Message} {messages : List Message} {exit : Exit}
include keeps

theorem loop (ended : Turns.loop executor id n x = some (y,exit)) : R x y := by
  induction n generalizing x with
  | zero => cases ended
  | succ n ih =>
    rw [Turns.loop] at ended
    split at ended
    · cases ended
      exact keeps.refl _
    · next queued x₁ popped =>
      obtain rfl := pop_release popped
      have turn := keeps.trans (keeps.releases x) (keeps.dispatches x.release queued)
      split at ended
      · next dispatched =>
        rw [dispatched] at turn
        cases ended
        exact turn
      · next dispatched =>
        rw [dispatched] at turn
        exact keeps.trans turn (ih ended)
      · next dispatched =>
        rw [dispatched] at turn
        exact keeps.trans turn (ih ended)

theorem process (ended : Turns.process executor id n x message = some (y,exit)) : R x y := by
  have first := keeps.dispatches x message
  unfold Turns.process at ended
  split at ended
  · next dispatched =>
    rw [dispatched] at first
    cases ended
    exact first
  · next dispatched =>
    rw [dispatched] at first
    cases ended
    exact first
  · next dispatched =>
    rw [dispatched] at first
    exact keeps.trans first (keeps.loop ended)

theorem serve (ended : Turns.serve executor id n x messages = some y) : R x y := by
  induction messages generalizing x with
  | nil =>
    cases ended
    exact keeps.refl _
  | cons message rest ih =>
    rw [Turns.serve] at ended
    split at ended
    · next processed => exact keeps.trans (keeps.process processed) (ih ended)
    · next after processed =>
      have fails := keeps.fails (panics_of_process processed) after
      exact keeps.trans (keeps.trans (keeps.process processed) fails) (ih ended)
    · cases ended

end KeepsUp

/-! ## What a turn does to the mailbox -/

section
variable (executor : Option (Executor σ)) (id : ActorId) (x : Scene σ) (message : Message)

theorem execute_mailbox :
    (execute executor id x message).1.actor.mailbox = x.actor.mailbox ∨
    (execute executor id x message).1.actor.mailbox = x.actor.mailbox.try_recv.1 ∨
    (execute executor id x message).1.actor.mailbox = x.actor.mailbox.clear := by
  cases executor with
  | none => exact .inr (.inl rfl)
  | some call =>
    simp only [execute]
    match (call x.executor id message).2 with
    | .returns .Success | .returns .NotReady => exact .inr (.inl rfl)
    | .returns .FuelExhausted | .returns .Failed => exact .inr (.inr rfl)
    | .panics => exact .inl rfl

/-- Ordinary messages of a suspended actor are sent back to it; any other dispatch
    leaves the mailbox, takes one message out or clears it. -/
theorem dispatch_mailbox :
    (x.actor.state = .Suspended ∧ is_control message.payload = false ∧
      dispatch executor id x message = ((x.saw message).onMailbox (fun mb => (mb.try_send message).1),.done)) ∨
    (dispatch executor id x message).1.actor.mailbox = x.actor.mailbox ∨
    (dispatch executor id x message).1.actor.mailbox = x.actor.mailbox.try_recv.1 ∨
    (dispatch executor id x message).1.actor.mailbox = x.actor.mailbox.clear := by
  unfold dispatch
  cases state : x.actor.state with
  | Running => exact .inr (execute_mailbox executor id (x.saw message) message)
  | Creating => exact .inr (execute_mailbox executor id (x.saw message) message)
  | Stopped => exact .inr (.inl rfl)
  | Failed => exact .inr (.inl rfl)
  | Suspended =>
    by_cases control : is_control message.payload = true
    · refine .inr (.inr (.inl ?_))
      simp only [control,if_true]
      split <;> rfl
    · have ordinary : is_control message.payload = false := by simpa using control
      exact .inl ⟨rfl,ordinary,by simp only [ordinary,Bool.false_eq_true,if_false]⟩

variable {executor id x message} {config : MailboxConfig} (fits : config.capacity < 2 ^ 64)
  (resting : Resting config x.actor.mailbox)
include fits resting

theorem dispatch_resting : Resting config (dispatch executor id x message).1.actor.mailbox := by
  rcases dispatch_mailbox executor id x message with ⟨-,-,sent⟩ | same | taken | cleared
  · rw [sent]
    rcases try_send_cases fits resting message with ⟨-,same⟩ | ⟨-,kept,-⟩
    · show Resting config (x.actor.mailbox.try_send message).1
      rw [same]
      exact resting
    · exact kept
  · rw [same]; exact resting
  · rw [taken]; exact try_recv_resting fits resting
  · rw [cleared]; exact (clear_resting fits resting).1

theorem pop_resting {queued : Message} {y : Scene σ} (popped : x.pop = some (queued,y)) : Resting config y.actor.mailbox := by
  rw [pop_release popped]
  exact try_recv_resting fits resting

omit fits in
/-- There is nothing to take from an empty mailbox. -/
theorem pop_contents (empty : contents x.actor.mailbox = []) : x.pop = none := by
  have size : x.actor.mailbox.is_empty = true := by
    rw [Mailbox.is_empty,Mailbox.len,resting.size,← contents_length,empty]
    rfl
  rw [Scene.pop,if_pos size]

omit resting in
theorem keeps_resting : KeepsUp executor id (fun x y => Resting config x.actor.mailbox → Resting config y.actor.mailbox) where
  refl := fun _ resting => resting
  trans := fun first second => second ∘ first
  dispatches := fun _ _ => dispatch_resting fits
  releases := fun _ => try_recv_resting fits
  fails := fun _ _ resting => (clear_resting fits resting).1

end

/-! ## Any registry -/

/-- What the registry holds of an actor that it knows. -/
def actorOf (r : ActorRegistry) (id : ActorId) : Option Actor :=
  match r.by_id.lookup id,r.mailboxes.lookup id with
  | some e,some mailbox => some ⟨e.state,e.processed,mailbox⟩
  | _,_ => none

/-- A run, seen from an actor of its registry. -/
def sceneOf (run : Run σ) (a : Actor) : Scene σ :=
  { actor := a, executor := run.executor, calls := run.calls, seen := run.seen }

/-- What holds of an actor in every registry while no call is in progress: one that
    is registered has a mailbox, whose counters agree with what it stores, and its
    count of messages is a 64-bit number. -/
structure Proper (config : MailboxConfig) (r : ActorRegistry) (id : ActorId) : Prop where
  fits : config.capacity < 2 ^ 64
  housed : (r.by_id.lookup id).isSome = true → (r.mailboxes.lookup id).isSome = true
  resting : ∀ a, actorOf r id = some a → Resting config a.mailbox
  counted : ∀ a, actorOf r id = some a → a.processed < 2 ^ 64

theorem known_of {r : ActorRegistry} {id : ActorId} {a : Actor} (found : actorOf r id = some a) :
    Known r id ∧ put r id a = r := by
  unfold actorOf at found
  split at found
  · next e mailbox entry box =>
    cases found
    refine ⟨⟨by rw [entry]; rfl,by rw [box]; rfl⟩,?_⟩
    unfold put
    rw [Dict.modify_fixed entry rfl,Dict.modify_fixed box rfl]
  · cases found

theorem inside_sceneOf {run : Run σ} {id : ActorId} {a : Actor} (found : actorOf run.registry id = some a) :
    (sceneOf run a).inside run.registry id = run := by
  unfold Scene.inside sceneOf
  rw [(known_of found).2]

/-- Who is not known is not registered. -/
theorem unknown_state {config : MailboxConfig} {r : ActorRegistry} {id : ActorId} (proper : Proper config r id)
    (unknown : actorOf r id = none) : r.get_state id = none := by
  cases entry : r.by_id.lookup id with
  | none => simp [ActorRegistry.get_state,entry]
  | some e =>
    obtain ⟨mb,box⟩ := Option.isSome_iff_exists.mp (proper.housed (by rw [entry]; rfl))
    simp [actorOf,entry,box] at unknown

theorem actorOf_put {r : ActorRegistry} {id : ActorId} (known : Known r id) (a : Actor) : actorOf (put r id a) id = some a := by
  obtain ⟨e,entry⟩ := Option.isSome_iff_exists.mp known.entry
  obtain ⟨mb,box⟩ := Option.isSome_iff_exists.mp known.mailbox
  simp [actorOf,put,entry,box]

/-- Nothing else changes. -/
theorem put_others (r : ActorRegistry) (id : ActorId) (a : Actor) {other : ActorId} (apart : other ≠ id) :
    (put r id a).by_id.lookup other = r.by_id.lookup other ∧ (put r id a).mailboxes.lookup other = r.mailboxes.lookup other := by
  simp [put,apart]

/-! ## A registry with one actor -/

/-- The mailbox of an actor that was sent these messages. -/
def filled (config : MailboxConfig) (id : ActorId) (messages : List Message) : Mailbox :=
  messages.foldl (fun mb m => (mb.try_send m).1) (.new id config)

theorem resting_filled {config : MailboxConfig} (fits : config.capacity < 2 ^ 64) (id : ActorId) (messages : List Message) :
    Resting config (filled config id messages) := by
  have keeps : ∀ mb, Resting config mb → Resting config (messages.foldl (fun mb m => (mb.try_send m).1) mb) := by
    induction messages with
    | nil => exact fun _ resting => resting
    | cons m messages ih =>
      intro mb resting
      refine ih _ ?_
      rcases try_send_cases fits resting m with ⟨-,same⟩ | ⟨-,kept,-⟩
      · show Resting config (mb.try_send m).1
        rw [same]
        exact resting
      · exact kept
  exact keeps _ (resting_new id)

/-- Nothing but one actor. -/
def lone (id : ActorId) (a : Actor) : ActorRegistry :=
  { by_id := (∅ : Dict ActorId ActorEntry).insert id { name := none, state := a.state, processed := a.processed }
    mailboxes := (∅ : Dict ActorId Mailbox).insert id a.mailbox }

theorem actorOf_lone (id : ActorId) (a : Actor) : actorOf (lone id a) id = some a := by
  simp only [actorOf,lone,AList.lookup_insert]

theorem proper_lone {config : MailboxConfig} (fits : config.capacity < 2 ^ 64) (id : ActorId) {a : Actor}
    (resting : Resting config a.mailbox) (counted : a.processed < 2 ^ 64) : Proper config (lone id a) id where
  fits := fits
  housed := fun _ => by simp only [lone,AList.lookup_insert,Option.isSome_some]
  resting := by
    intro a' found
    rw [actorOf_lone] at found
    cases found
    exact resting
  counted := by
    intro a' found
    rw [actorOf_lone] at found
    cases found
    exact counted

end ActorKit.Turns
