import ActorKit.Turns

/-!
# A crash stays with its actor

Whatever the executor does with the messages of a task, only the entry and the
mailbox of their actor change. A call that fails, runs out of fuel or panics is
the last one of its task: it leaves the actor failed with an empty mailbox, and
the calls before it are the ones that were counted.
-/

namespace ActorKit.Containment
open ActorKit.mailbox ActorKit.registry ActorKit.queue ActorKit.scheduler ActorKit.dispatch
open ActorKit.MailboxCalls ActorKit.Batches ActorKit.Turns
variable {σ : Type}

/-- A call of `execute` that went well. -/
def Well (call : Message × Execution) : Prop := call.2 = .returns .Success ∨ call.2 = .returns .NotReady

/-- A call that crashes the actor. -/
def Fatal (call : Message × Execution) : Prop :=
  call.2 = .returns .Failed ∨ call.2 = .returns .FuelExhausted ∨ call.2 = .panics

theorem well_not_fatal {call : Message × Execution} (well : Well call) : ¬Fatal call := by
  rcases well with same | same <;> simp [Fatal,same]

/-- These calls of `execute` went well and were counted. -/
structure Counted (before after : Nat) (calls : List (Message × Execution)) : Prop where
  well : ∀ call ∈ calls, Well call
  processed : after = (before + calls.length) % 2 ^ 64

/-- All went well from `x` to `y`. -/
def Clean (x y : Scene σ) : Prop :=
  ∃ calls, y.calls = x.calls ++ calls ∧ Counted x.actor.processed y.actor.processed calls

/-- The last call crashed. -/
def Crashed (x y : Scene σ) : Prop :=
  ∃ calls last, y.calls = x.calls ++ calls ++ [last] ∧ Fatal last ∧ Counted x.actor.processed y.actor.processed calls

/-- A crash that was dealt with. -/
structure Contained (config : MailboxConfig) (x y : Scene σ) : Prop where
  crashed : Crashed x y
  state : y.actor.state = .Failed
  empty : contents y.actor.mailbox = []
  permits : y.actor.mailbox.permits = config.capacity

section
variable (call : Executor σ) (id : ActorId) {config : MailboxConfig} (fits : config.capacity < 2 ^ 64)
  {x y z : Scene σ} (resting : Resting config x.actor.mailbox)

theorem clean_refl (small : x.actor.processed < 2 ^ 64) : Clean x x :=
  ⟨[],by simp,nofun,(Nat.mod_eq_of_lt small).symm⟩

/-- A step that calls nothing and counts nothing. -/
theorem clean_same (small : x.actor.processed < 2 ^ 64) (calls : y.calls = x.calls)
    (processed : y.actor.processed = x.actor.processed) : Clean x y :=
  ⟨[],by simp [calls],nofun,processed.trans (Nat.mod_eq_of_lt small).symm⟩

theorem Clean.trans (first : Clean x y) (then_ : Clean y z) : Clean x z := by
  obtain ⟨calls,same,well,processed⟩ := first
  obtain ⟨calls',same',well',processed'⟩ := then_
  refine ⟨calls ++ calls',by rw [same',same,List.append_assoc],?_,?_⟩
  · intro c member
    exact (List.mem_append.mp member).elim (well c) (well' c)
  · rw [processed',processed,List.length_append]
    omega

theorem Clean.crashed (first : Clean x y) (then_ : Crashed y z) : Crashed x z := by
  obtain ⟨calls,same,well,processed⟩ := first
  obtain ⟨calls',last,same',fatal,well',processed'⟩ := then_
  refine ⟨calls ++ calls',last,by rw [same',same]; simp,fatal,?_,?_⟩
  · intro c member
    exact (List.mem_append.mp member).elim (well c) (well' c)
  · rw [processed',processed,List.length_append]
    omega

theorem Clean.contained (first : Clean x y) (then_ : Contained config y z) : Contained config x z :=
  ⟨first.crashed then_.crashed,then_.state,then_.empty,then_.permits⟩

theorem Clean.small (first : Clean x y) : y.actor.processed < 2 ^ 64 := by
  obtain ⟨calls,-,-,processed⟩ := first
  rw [processed]
  exact Nat.mod_lt _ (by decide)

/-! ## One message -/

/-- What the answer to a call makes of it. -/
inductive Outcome (config : MailboxConfig) (x y : Scene σ) : Next → Prop where
  | well {next : Next} (clean : Clean x y) (goes : next ≠ .panic) : Outcome config x y next
  | contained (contained : Contained config x y) : Outcome config x y .done
  | panicked (crashed : Crashed x y) : Outcome config x y .panic

include fits resting in
theorem fail_contained (crashed : Crashed y x) : Contained config y x.fail := by
  obtain ⟨-,empty,permits⟩ := clear_resting fits resting
  exact ⟨crashed,rfl,empty,permits⟩

include fits resting in
theorem execute_outcome (small : x.actor.processed < 2 ^ 64) (message : Message) :
    Outcome config x (execute (some call) id x message).1 (execute (some call) id x message).2 := by
  simp only [execute]
  generalize (call x.executor id message).1 = state
  have unchanged : x.actor.processed = (x.actor.processed + 0) % 2 ^ 64 := (Nat.mod_eq_of_lt small).symm
  cases (call x.executor id message).2 with
  | panics =>
    exact .panicked ⟨[],(message,.panics),by simp [Scene.called,Scene.answered],.inr (.inr rfl),by simp,unchanged⟩
  | returns result =>
    cases result with
    | Success =>
      exact .well ⟨[(message,.returns .Success)],rfl,by simp [Well],by simp [Scene.answered,Scene.count,Scene.change,
        Scene.release,Scene.onMailbox,Scene.called,fetch_add]⟩ Next.noConfusion
    | NotReady =>
      exact .well ⟨[(message,.returns .NotReady)],rfl,by simp [Well],by simp [Scene.answered,Scene.count,Scene.change,
        Scene.release,Scene.onMailbox,Scene.called,fetch_add]⟩ Next.noConfusion
    | FuelExhausted =>
      exact .contained (fail_contained fits (x := x.called state message (.returns .FuelExhausted)) resting
        ⟨[],(message,.returns .FuelExhausted),by simp [Scene.called],.inr (.inl rfl),by simp,unchanged⟩)
    | Failed =>
      exact .contained (fail_contained fits (x := x.called state message (.returns .Failed)) resting
        ⟨[],(message,.returns .Failed),by simp [Scene.called],.inl rfl,by simp,unchanged⟩)

include fits resting in
theorem dispatch_outcome (small : x.actor.processed < 2 ^ 64) (message : Message) :
    Outcome config x (dispatch (some call) id x message).1 (dispatch (some call) id x message).2 := by
  -- Only executing a message calls or counts anything.
  have executes : Outcome config x (execute (some call) id (x.saw message) message).1
      (execute (some call) id (x.saw message) message).2 := by
    have outcome := execute_outcome call id fits (x := x.saw message) resting small message
    generalize execute (some call) id (x.saw message) message = result at outcome ⊢
    obtain ⟨y,next⟩ := result
    cases outcome with
    | well clean goes => exact .well clean goes
    | contained contained => exact .contained ⟨contained.crashed,contained.state,contained.empty,contained.permits⟩
    | panicked crashed => exact .panicked crashed
  unfold dispatch
  match x.actor.state with
  | .Running | .Creating => exact executes
  | .Stopped | .Failed => exact .well (clean_refl small) Next.noConfusion
  | .Suspended =>
    by_cases control : is_control message.payload = true
    · simp only [control,if_true]
      split <;> exact .well (clean_same small rfl rfl) Next.noConfusion
    · simp only [control,if_false,Bool.false_eq_true]
      exact .well (clean_same small rfl rfl) Next.noConfusion

/-! ## A drain and a task -/

/-- What a whole call makes of it. -/
inductive Result (config : MailboxConfig) (x y : Scene σ) : Exit → Prop where
  | well (clean : Clean x y) : Result config x y .returned
  | contained (contained : Contained config x y) : Result config x y .returned
  | panicked (crashed : Crashed x y) : Result config x y .panicked

theorem Clean.result {exit : Exit} (first : Clean x y) (then_ : Result config y z exit) : Result config x z exit := by
  cases then_ with
  | well clean => exact .well (first.trans clean)
  | contained contained => exact .contained (first.contained contained)
  | panicked crashed => exact .panicked (first.crashed crashed)

include fits resting in
theorem loop_result {n : Nat} {exit : Exit} (small : x.actor.processed < 2 ^ 64)
    (ended : loop (some call) id n x = some (y,exit)) : Result config x y exit := by
  induction n generalizing x with
  | zero => cases ended
  | succ n ih =>
    rw [loop] at ended
    cases popped : x.pop with
    | none =>
      simp only [popped] at ended
      cases ended
      exact .well (clean_refl small)
    | some taken =>
      obtain ⟨queued,x₁⟩ := taken
      simp only [popped] at ended
      have rested := pop_resting fits resting popped
      have first : Clean x x₁ := by
        obtain rfl := pop_release popped
        exact clean_same small rfl rfl
      have outcome := dispatch_outcome call id fits rested first.small queued
      have kept : Resting config (dispatch (some call) id x₁ queued).1.actor.mailbox := dispatch_resting fits rested
      generalize dispatch (some call) id x₁ queued = dispatched at outcome kept ended
      obtain ⟨z,next⟩ := dispatched
      cases outcome with
      | panicked crashed =>
        cases ended
        exact .panicked (first.crashed crashed)
      | well clean goes =>
        cases next with
        | panic => exact absurd rfl goes
        | drain => exact (first.trans clean).result (ih kept clean.small ended)
        | done => exact (first.trans clean).result (ih kept clean.small ended)
      | contained contained =>
        -- The mailbox was cleared, so the drain ends here.
        cases n with
        | zero => cases ended
        | succ n =>
          simp only [loop,pop_contents kept contained.empty] at ended
          cases ended
          exact .contained (first.contained contained)

include fits resting in
theorem process_result {n : Nat} {exit : Exit} {message : Message} (small : x.actor.processed < 2 ^ 64)
    (ended : process (some call) id n x message = some (y,exit)) : Result config x y exit := by
  have outcome := dispatch_outcome call id fits resting small message
  have kept : Resting config (dispatch (some call) id x message).1.actor.mailbox := dispatch_resting fits resting
  unfold process at ended
  match dispatch (some call) id x message,outcome,kept,ended with
  | (z,.panic),.panicked crashed,_,ended =>
    cases ended
    exact .panicked crashed
  | (z,.panic),.well _ goes,_,_ => exact absurd rfl goes
  | (z,.drain),.well clean _,kept,ended => exact clean.result (loop_result call id fits kept clean.small ended)
  | (z,.done),.well clean _,_,ended =>
    cases ended
    exact .well clean
  | (z,.done),.contained contained,_,ended =>
    cases ended
    exact .contained contained

/-- A failed actor ignores the rest. -/
theorem serve_failed {executor : Option (Executor σ)} {n : Nat} (failed : x.actor.state = .Failed) (messages : List Message) :
    serve executor id n x messages = some x := by
  induction messages with
  | nil => rfl
  | cons message rest ih =>
    have ignored : dispatch executor id x message = (x,.done) := by simp only [dispatch,failed]
    rw [serve,process,ignored]
    exact ih

include fits resting in
/-- All messages of a task. -/
theorem serve_result {n : Nat} {messages : List Message} (small : x.actor.processed < 2 ^ 64)
    (ended : serve (some call) id n x messages = some y) : Clean x y ∨ Contained config x y := by
  induction messages generalizing x with
  | nil =>
    cases ended
    exact .inl (clean_refl small)
  | cons message rest ih =>
    rw [serve] at ended
    split at ended
    · next z processed =>
      have result := process_result call id fits resting small processed
      have kept := (keeps_resting fits).process processed resting
      cases result with
      | well clean =>
        rcases ih kept clean.small ended with later | contained
        · exact .inl (clean.trans later)
        · exact .inr (clean.contained contained)
      | contained contained =>
        rw [serve_failed id contained.state] at ended
        cases ended
        exact .inr contained
    · next z processed =>
      have result := process_result call id fits resting small processed
      have kept := (keeps_resting fits).process processed resting
      cases result with
      | panicked crashed =>
        have contained := fail_contained fits kept crashed
        rw [serve_failed id contained.state] at ended
        cases ended
        exact .inr contained
    · cases ended

end

/-- Without an executor nothing is called. -/
theorem keeps_calls (id : ActorId) : KeepsUp (none : Option (Executor σ)) id (fun x y => y.calls = x.calls) where
  refl := fun _ => rfl
  trans := fun first second => second.trans first
  dispatches := by
    intro x message
    unfold dispatch
    match x.actor.state with
    | .Running | .Creating | .Stopped | .Failed => rfl
    | .Suspended =>
      simp only
      split
      · split <;> rfl
      · rfl
  releases := fun _ => rfl
  fails := fun _ _ => rfl

/-- Whatever the registry, the task and the executor, when the task has been
    processed: nothing of another actor has changed; and if some call of `execute`
    failed, ran out of fuel or panicked, it was the last one, the actor is failed,
    its mailbox is empty with all its capacity, and it has counted exactly the calls
    before. -/
theorem crash_contained (executor : Option (Executor σ)) (run : Run σ) (task : Task) {config : MailboxConfig}
    (proper : Proper config run.registry task.actor_id) {fuel : Nat} {run' : Run σ}
    (ended : process_task_safe executor fuel run task = some run') :
    (∀ other, other ≠ task.actor_id → run'.registry.by_id.lookup other = run.registry.by_id.lookup other ∧
      run'.registry.mailboxes.lookup other = run.registry.mailboxes.lookup other) ∧
    ∃ calls, run'.calls = run.calls ++ calls ∧ ((∃ call ∈ calls, Fatal call) →
      ∃ a a' earlier last, actorOf run.registry task.actor_id = some a ∧ actorOf run'.registry task.actor_id = some a' ∧
        calls = earlier ++ [last] ∧ (∀ call ∈ earlier, Well call) ∧ Fatal last ∧ a'.state = .Failed ∧
        contents a'.mailbox = [] ∧ a'.mailbox.permits = config.capacity ∧
        a'.processed = (a.processed + earlier.length) % 2 ^ 64) := by
  rw [task_singles] at ended
  cases found : actorOf run.registry task.actor_id with
  | none =>
    -- An actor that is not registered is skipped.
    cases fuel with
    | zero => cases ended
    | succ fuel =>
      rw [singles,tasks_idle (.inr (.inr (unknown_state proper found)))] at ended
      cases ended
      exact ⟨fun _ _ => ⟨rfl,rfl⟩,[],by simp,by simp⟩
  | some a =>
    obtain ⟨known,same⟩ := known_of found
    rw [← inside_sceneOf found] at ended
    obtain ⟨n,x',serves,rfl⟩ := (serve_iff known).mp ⟨fuel,ended⟩
    have others : ∀ other, other ≠ task.actor_id →
        (put run.registry task.actor_id x'.actor).by_id.lookup other = run.registry.by_id.lookup other ∧
        (put run.registry task.actor_id x'.actor).mailboxes.lookup other = run.registry.mailboxes.lookup other :=
      fun other apart => put_others _ _ _ apart
    refine ⟨others,?_⟩
    cases executor with
    | none =>
      have none := (keeps_calls task.actor_id).serve serves
      exact ⟨[],by simp [Scene.inside,none,sceneOf],by simp⟩
    | some call =>
      rcases serve_result call task.actor_id proper.fits (proper.resting a found) (proper.counted a found) serves with
        ⟨calls,logged,well,-⟩ | ⟨⟨earlier,last,logged,fatal,well,processed⟩,state,empty,permits⟩
      · refine ⟨calls,logged,?_⟩
        rintro ⟨call,member,fatal⟩
        exact absurd fatal (well_not_fatal (well call member))
      · refine ⟨earlier ++ [last],by rw [← List.append_assoc]; exact logged,fun _ => ?_⟩
        exact ⟨a,x'.actor,earlier,last,rfl,actorOf_put known _,rfl,well,fatal,state,empty,permits,processed⟩

/-- A batch of three messages whose second call panics. -/
theorem crash_contained_batch :
    let message (n : UInt8) : Message := ⟨none,.Custom [n],.Normal,0⟩
    let executor : Executor Nat := fun calls _ _ => (calls + 1,if calls = 0 then .returns .Success else .panics)
    let a : Actor := ⟨.Running,0,filled { capacity := 8 } ⟨1⟩ [message 0,message 1,message 2]⟩
    let run : Run Nat := { registry := lone ⟨1⟩ a, executor := 0 }
    let task : Task := { actor_id := ⟨1⟩, message := message 0, priority := .Normal,
                         additional_messages := [message 1,message 2] }
    ∃ run' a', process_task_safe (some executor) 1 run task = some run' ∧ actorOf run'.registry ⟨1⟩ = some a' ∧
      a'.state = .Failed ∧ contents a'.mailbox = [] ∧ a'.mailbox.permits = 8 ∧ a'.processed = 1 := by
  intro message executor a run task
  have fits : ({ capacity := 8 } : MailboxConfig).capacity < 2 ^ 64 := by decide
  have runs : (process_task_safe (some executor) 1 run task).map (·.calls) =
      some [(message 0,.returns .Success),(message 1,.panics)] := by decide +kernel
  obtain ⟨run',ended,logged⟩ := Option.map_eq_some_iff.mp runs
  obtain ⟨-,calls,new,contained⟩ := crash_contained (some executor) run task
    (proper_lone fits ⟨1⟩ (resting_filled fits ⟨1⟩ _) (by decide)) ended
  have all : calls = [(message 0,.returns .Success),(message 1,.panics)] := by
    rw [logged] at new
    exact new.symm
  obtain ⟨b,a',earlier,last,known,found,split,-,-,state,empty,permits,processed⟩ :=
    contained ⟨(message 1,.panics),by rw [all]; simp,.inr (.inr rfl)⟩
  refine ⟨run',a',ended,found,state,empty,permits,?_⟩
  obtain rfl : b = a := Option.some.inj (known.symm.trans (actorOf_lone ⟨1⟩ a))
  have one : earlier.length = 1 := by
    have length := congrArg List.length (all.symm.trans split)
    simp at length
    omega
  rw [processed,one]
  rfl

end ActorKit.Containment
