import ActorKit.Fifo

/-!
# The statistics of the workers

The scheduler with the counters `processed` and `batches_processed` of its
workers. They are exact as long as no task of several messages panics, since
`process_task` has counted such a task before `process_task_safe` counts it
again, and as long as nobody unregisters an actor while a message of it is
executed.
-/

namespace ActorKit.Statistics
open ActorKit.mailbox ActorKit.registry ActorKit.queue ActorKit.scheduler ActorKit.Moves
open ActorKit.Transition ActorKit.Counting
open ActorKit.Fifo (takes)
open ActorKit.ExactlyOnce (started sending_payload)

/-- Per-worker statistics. -/
structure WorkerStats where
  processed : Nat := 0
  batches_processed : Nat := 0
deriving DecidableEq, Repr

/-- What a worker counts with one call. -/
inductive Event where
  | nothing
  /-- `process_task` starts on a task of several messages. -/
  | started
  /-- `process_task_safe` has caught a panic in a task of several messages. -/
  | panicked
  /-- `process_single_message` counts a message and records it; whether
      `record_processed` finds the actor. -/
  | recorded (registered : Bool)
deriving DecidableEq, Repr

def several (task : Task) : Bool := !task.additional_messages.isEmpty

/-- What a call inside `process_task_safe` counts. -/
def eventOf (config : SchedulerConfig) (g : Shared) (job : Job) (execution : Execution) : Event :=
  match job.stage with
  | .execute _ => if config.executor && execution == .panics && job.batch then .panicked else .nothing
  | .record => .recorded (g.registry.by_id.lookup job.actor_id).isSome
  | _ => .nothing

/-- What the worker that takes the step counts. -/
def event (s : System) (label : Label) : Event :=
  match takes s label with
  | some task => if several task then .started else .nothing
  | none => match label with
    | .worker i execution _ => match (s.workers[i]?).bind holding with
      | some job => eventOf s.config s.shared job execution
      | none => .nothing
    | _ => .nothing

def WorkerStats.count (stats : WorkerStats) : Event → WorkerStats
  | .nothing => stats
  | .started | .panicked => { stats with batches_processed := fetch_add stats.batches_processed 1 }
  | .recorded _ => { stats with processed := fetch_add stats.processed 1 }

/-- A scheduler with the statistics of its workers, and how often
    `record_processed` has incremented the counter of an actor. -/
structure Counted where
  system : System
  worker_stats : List WorkerStats
  increments : Nat := 0

namespace Counted

def note (c : Counted) (label : Label) (system : System) : Counted :=
  match label with
  | .worker i _ _ => match c.system.workers[i]? with
    | some w =>
      { system
        worker_stats := c.worker_stats.modify w.worker_id (·.count (event c.system label))
        increments := if event c.system label = .recorded true then c.increments + 1 else c.increments }
    | none => { c with system }
  | _ => { c with system }

/-- `start` creates the workers whose statistics there are. -/
def step (c : Counted) (label : Label) : Option Counted :=
  match label with
  | .start_worker worker_id =>
    if worker_id < c.worker_stats.length then (c.system.step label).map (c.note label) else none
  | _ => (c.system.step label).map (c.note label)

def init (config : SchedulerConfig) (worker_count clients : Nat) : Counted where
  system := .init config clients
  worker_stats := List.replicate worker_count {}

/-- The statistics of the worker that takes the step. -/
def statsOf (c : Counted) : Label → WorkerStats
  | .worker i _ _ => ((c.system.workers[i]?).bind (fun w => c.worker_stats[w.worker_id]?)).getD {}
  | _ => {}

/-- No executor panics in a task of several messages, the actor of a counted
    message is still registered, and no counter overflows. -/
def sound (c : Counted) (label : Label) : Bool :=
  match event c.system label with
  | .nothing => true
  | .started => (c.statsOf label).batches_processed + 1 < 2 ^ 64
  | .panicked => false
  | .recorded registered => registered && (c.statsOf label).processed + 1 < 2 ^ 64

end Counted

/-- The tasks of several messages that a worker has started to process. -/
def startedBatches (s : System) : Nat := (s.shared.history.taken.filter several).length

/-- The counters of the workers sum up to what happened. -/
structure Exact (c : Counted) : Prop where
  batches : (c.worker_stats.map (·.batches_processed)).sum = startedBatches c.system
  processed : (c.worker_stats.map (·.processed)).sum = c.increments

theorem exact_iff {c : Counted} : Exact c ↔
    (c.worker_stats.map (·.batches_processed)).sum = startedBatches c.system ∧
      (c.worker_stats.map (·.processed)).sum = c.increments :=
  ⟨fun right => ⟨right.batches,right.processed⟩,fun right => ⟨right.1,right.2⟩⟩

/-! ## What a step takes -/

theorem nobody_first {queue : Option (List Task)} (empty : ∀ task rest, queue = some (task :: rest) → False) :
    queue.bind List.head? = none := by
  cases queue with
  | none => rfl
  | some tasks =>
    cases tasks with
    | nil => rfl
    | cons task rest => exact (empty task rest rfl).elim

theorem rotated_id (w : Worker) : w.rotated.worker_id = w.worker_id := by
  unfold Worker.rotated
  split <;> rfl

/-- A worker logs the task it takes, and keeps its id. -/
theorem worker_taken {s : System} {i : Nat} {execution : Execution} {moved : Nat} {w w' : Worker} {g' : Shared}
    (found : s.workers[i]? = some w) (stepped : w.step s.config s.shared execution moved = some (g',w')) :
    g'.history.taken = s.shared.history.taken ++ (takes s (.worker i execution moved)).toList ∧
      w'.worker_id = w.worker_id := by
  simp only [takes,found]
  obtain ⟨worker_id,deque,iteration,last_version,stealers,index,pc⟩ := w
  cases pc with
  | exited => cases stepped
  | head =>
    simp only [Worker.step] at stepped
    split at stepped
    · cases stepped
      simp
    · split at stepped <;> cases stepped <;> simp
  | version =>
    simp only [Worker.step] at stepped
    split at stepped <;> cases stepped <;> simp
  | refresh | push_local =>
    cases stepped
    simp
  | pop lane =>
    simp only [Worker.step] at stepped
    split at stepped
    · next head =>
      cases stepped
      simp [head,Shared.log_taken]
    · next empty =>
      cases stepped
      cases lane <;> simp [empty,Worker.after_lane,rotated_id]
  | pop_local =>
    simp only [Worker.step] at stepped
    split at stepped
    · next head =>
      cases stepped
      simp [head,Shared.log_taken]
    · next empty =>
      cases stepped
      simp [nobody_first empty]
  | steal victims =>
    simp only [Worker.step] at stepped
    split at stepped
    · cases stepped
      simp [rotated_id]
    · split at stepped
      · next head =>
        cases stepped
        simp [head,Shared.log_taken]
      · next empty =>
        cases stepped
        simp [nobody_first empty]
  | steal_batch =>
    simp only [Worker.step] at stepped
    split at stepped <;> cases stepped <;> simp
  | process job =>
    cases steps : job.step s.config s.shared execution with
    | mk g' next =>
      have frame := effect_frame (step_effect steps)
      simp only [Worker.step,steps] at stepped
      split at stepped <;> cases stepped <;> simp [frame.taken]

theorem client_taken {config : SchedulerConfig} {g g' : Shared} {i : Nat} {call : Call} {c c' : Client}
    (moves : ClientMove config g i call c g' c') : g'.history.taken = g.history.taken := by
  cases moves with
  | enter =>
    obtain ⟨next,same⟩ := enter_frame g call
    rw [same]
  | look | accept | refuse | enqueue | set_state | kill | clear | unregister => rfl

theorem unstarted {s : System} {label : Label} (nothing : takes s label = none) : event s label ≠ .started := by
  cases label with
  | worker i execution moved =>
    simp only [event,nothing]
    split
    · unfold eventOf
      split
      · split <;> simp
      · simp
      · simp
    · simp
  | _ => simp [event,nothing]

/-- The batches started grow with the step that takes one. -/
theorem startedBatches_taken {s s' : System} {label : Label}
    (taken : s'.shared.history.taken = s.shared.history.taken ++ (takes s label).toList) :
    startedBatches s' = startedBatches s + if event s label = .started then 1 else 0 := by
  unfold startedBatches
  rw [taken,List.filter_append,List.length_append]
  cases found : takes s label with
  | some task => by_cases multiple : several task = true <;> simp [event,found,multiple]
  | none => simp [unstarted found]

/-! ## Runs -/

/-- What a step does: a worker counts its event, anybody else counts nothing. -/
inductive Counts (c : Counted) : Label → Counted → Prop where
  | worker {i : Nat} {execution : Execution} {moved : Nat} {w w' : Worker} {system : System}
      (found : c.system.workers[i]? = some w) (keeps : w'.worker_id = w.worker_id)
      (workers : system.workers = c.system.workers.set i w')
      (batches : startedBatches system = startedBatches c.system +
        if event c.system (.worker i execution moved) = .started then 1 else 0) :
      Counts c (.worker i execution moved)
        { system
          worker_stats := c.worker_stats.modify w.worker_id (·.count (event c.system (.worker i execution moved)))
          increments :=
            if event c.system (.worker i execution moved) = .recorded true then c.increments + 1 else c.increments }
  | other {label : Label} {system : System} (quiet : event c.system label = .nothing)
      (workers : ∀ w ∈ system.workers, w ∈ c.system.workers ∨ w.worker_id < c.worker_stats.length)
      (batches : startedBatches system = startedBatches c.system) : Counts c label { c with system }

theorem step_counts {c c' : Counted} {label : Label} (stepped : c.step label = some c') : Counts c label c' := by
  cases label with
  | worker i execution moved =>
    obtain ⟨system,moves,rfl⟩ := Option.map_eq_some_iff.mp stepped
    obtain ⟨w,found,rest⟩ := Option.bind_eq_some_iff.mp moves
    obtain ⟨⟨g',w'⟩,worked,same⟩ := Option.bind_eq_some_iff.mp rest
    cases same
    obtain ⟨taken,keeps⟩ := worker_taken found worked
    simp only [Counted.note,found]
    exact .worker found keeps rfl (startedBatches_taken taken)
  | client i call admitted =>
    obtain ⟨system,moves,rfl⟩ := Option.map_eq_some_iff.mp stepped
    obtain ⟨client,found,rest⟩ := Option.bind_eq_some_iff.mp moves
    obtain ⟨⟨g',client'⟩,called,same⟩ := Option.bind_eq_some_iff.mp rest
    cases same
    refine .other rfl (fun w member => .inl member) ?_
    simp only [startedBatches,client_taken (client_move called)]
  | drop_send i =>
    obtain ⟨system,moves,rfl⟩ := Option.map_eq_some_iff.mp stepped
    simp only [System.step] at moves
    split at moves <;> cases moves <;> exact .other rfl (fun w member => .inl member) rfl
  | spawn id name =>
    obtain ⟨system,moves,rfl⟩ := Option.map_eq_some_iff.mp stepped
    simp only [System.step] at moves
    split at moves <;> cases moves
    exact .other rfl (fun w member => .inl member) rfl
  | receive | set_running =>
    cases stepped
    exact .other rfl (fun w member => .inl member) rfl
  | start_worker worker_id =>
    simp only [Counted.step] at stepped
    split at stepped
    · next staffed =>
      cases stepped
      refine .other rfl (fun w member => ?_) rfl
      rcases List.mem_append.mp member with old | new
      · exact .inl old
      · rw [List.mem_singleton.mp new]
        exact .inr staffed
    · cases stepped

/-- Every worker has its statistics. -/
def Staffed (c : Counted) : Prop := ∀ w ∈ c.system.workers, w.worker_id < c.worker_stats.length

theorem staffed_step {c c' : Counted} {label : Label} (staffed : Staffed c) (stepped : c.step label = some c') :
    Staffed c' := by
  cases step_counts stepped with
  | worker found keeps workers =>
    intro w member
    rw [workers] at member
    rw [List.length_modify]
    rcases List.mem_or_eq_of_mem_set member with old | rfl
    · exact staffed w old
    · rw [keeps]
      exact staffed _ (List.mem_of_getElem? found)
  | other _ workers =>
    intro w member
    rcases workers w member with old | new
    · exact staffed w old
    · exact new

/-- A step keeps the statistics exact exactly when it is sound. -/
theorem exact_step_iff {c c' : Counted} {label : Label} (staffed : Staffed c) (right : Exact c)
    (stepped : c.step label = some c') : Exact c' ↔ c.sound label = true := by
  cases step_counts stepped with
  | other quiet _ batches =>
    refine iff_of_true ⟨?_,right.processed⟩ (by simp [Counted.sound,quiet])
    rw [batches]
    exact right.batches
  | @worker i execution moved w w' system found keeps workers batches =>
    have here : c.worker_stats[w.worker_id]? = some (c.statsOf (.worker i execution moved)) := by
      simp only [Counted.statsOf,found,Option.bind_some]
      rw [List.getElem?_eq_getElem (staffed w (List.mem_of_getElem? found))]
      rfl
    have countedBatches := sum_map_modify (·.batches_processed) here
      (·.count (event c.system (.worker i execution moved)))
    have countedMessages := sum_map_modify (·.processed) here (·.count (event c.system (.worker i execution moved)))
    have batchesBefore := right.batches
    have messagesBefore := right.processed
    rw [exact_iff]
    simp only [Counted.sound]
    cases happened : event c.system (.worker i execution moved) with
    | nothing =>
      simp only [happened,WorkerStats.count,reduceCtorEq,if_false,iff_true] at batches countedBatches countedMessages ⊢
      omega
    | started =>
      simp only [happened,WorkerStats.count,fetch_add,reduceCtorEq,if_true,if_false,decide_eq_true_eq]
        at batches countedBatches countedMessages ⊢
      omega
    | panicked =>
      simp only [happened,WorkerStats.count,fetch_add,reduceCtorEq,if_false,Bool.false_eq_true,iff_false]
        at batches countedBatches countedMessages ⊢
      omega
    | recorded registered =>
      cases registered <;>
        simp only [happened,WorkerStats.count,fetch_add,reduceCtorEq,if_true,if_false,Event.recorded.injEq,
          Bool.false_eq_true,Bool.false_and,Bool.true_and,decide_eq_true_eq,iff_false]
          at batches countedBatches countedMessages ⊢ <;> omega

/-- Over every run the statistics of the workers are exact as long as no task of
    several messages panics, every counted message finds its actor registered and
    no counter overflows. -/
theorem worker_statistics_iff (config : SchedulerConfig) (worker_count clients : Nat) (labels : List Label) :
    Along Counted.step Exact (.init config worker_count clients) labels ↔
      AllMeet Counted.step (fun c label => c.sound label = true) (.init config worker_count clients) labels := by
  have initial : Exact (.init config worker_count clients) := by
    refine ⟨?_,?_⟩ <;> simp [Counted.init,startedBatches,System.init]
  have unstaffed : Staffed (.init config worker_count clients) := fun w member => by cases member
  have keeps : ∀ c label c', Staffed c → c.step label = some c' → Staffed c' :=
    fun _ _ _ staffed stepped => staffed_step staffed stepped
  exact along_iff keeps (fun _ _ _ staffed right stepped => exact_step_iff staffed right stepped) unstaffed initial labels

/-- A task of two messages for the actor, and `n` calls of the worker. -/
def batch (n : Nat) (execution : Execution) : List Label :=
  let m : Message := { sender := none, payload := .Custom [1], priority := .Normal }
  started ++ List.replicate 7 (.client 0 (.send_batch ⟨1⟩ [m,m]) true) ++ List.replicate n (.worker 0 execution 0)

theorem worker_statistics_batch :
    Along Counted.step Exact (.init { executor := true } 2 1) (batch 18 (.returns .NotReady)) ∧
    (run Counted.step (.init { executor := true } 2 1) (batch 18 (.returns .NotReady))).map
      (fun c => (c.worker_stats,c.increments,startedBatches c.system)) = some ([⟨2,1⟩,⟨0,0⟩],2,1) :=
  ⟨(worker_statistics_iff _ 2 1 _).mpr (allMeet_checked (by decide +kernel)),by decide +kernel⟩

/-- A message is executed while its actor is killed. -/
def killed : List Label :=
  started ++ sending_payload (.Custom [1]) ++ List.replicate 9 (.worker 0 (.returns .Success) 0) ++
    List.replicate 5 (.client 0 (.kill ⟨1⟩) true) ++ [.worker 0 (.returns .Success) 0]

/-- A task of two messages that panics counts twice, and the message of an actor
    that is gone is processed without being recorded. -/
theorem panicked_batch_counts_twice :
    (¬ Along Counted.step Exact (.init { executor := true } 1 1) (batch 9 .panics) ∧
      (run Counted.step (.init { executor := true } 1 1) (batch 9 .panics)).map
        (fun c => (c.worker_stats,startedBatches c.system)) = some ([⟨0,2⟩],1)) ∧
    ¬ Along Counted.step Exact (.init { executor := true } 1 1) killed ∧
      (run Counted.step (.init { executor := true } 1 1) killed).map (fun c => (c.worker_stats,c.increments)) =
        some ([⟨1,0⟩],0) := by
  have twice : (run Counted.step (.init { executor := true } 1 1) (batch 9 .panics)).map
      (fun c => (c.worker_stats,startedBatches c.system)) = some ([⟨0,2⟩],1) := by decide +kernel
  have unrecorded : (run Counted.step (.init { executor := true } 1 1) killed).map
      (fun c => (c.worker_stats,c.increments)) = some ([⟨1,0⟩],0) := by decide +kernel
  refine ⟨⟨fun along => ?_,twice⟩,fun along => ?_,unrecorded⟩
  · obtain ⟨c,runs,same⟩ := Option.map_eq_some_iff.mp twice
    simp only [Prod.mk.injEq] at same
    have batches := (along.last runs).batches
    rw [same.1,same.2] at batches
    cases batches
  · obtain ⟨c,runs,same⟩ := Option.map_eq_some_iff.mp unrecorded
    simp only [Prod.mk.injEq] at same
    have processed := (along.last runs).processed
    rw [same.1,same.2] at processed
    cases processed

end ActorKit.Statistics
