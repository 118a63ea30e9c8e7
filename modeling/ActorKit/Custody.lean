import ActorKit.Fifo

/-!
# The custody of tasks

Where every task is. The scheduler is observed together with the task each
worker holds, the tasks that are finished and the tasks that were stolen; the
observer never disturbs it. A task that was pushed is in one injector, with one
worker, or finished, and nobody ever finds one in a local queue.
-/

namespace ActorKit.Custody
open ActorKit.mailbox ActorKit.registry ActorKit.queue ActorKit.scheduler ActorKit.Moves
open ActorKit.Inventory ActorKit.Transition ActorKit.Counting ActorKit.Delivery
open ActorKit.Fifo (takes)
open ActorKit.ExactlyOnce (started sending_payload)

/-- A scheduler under observation: what each worker holds, what is finished, and
    the sum of the `stolen` statistics. -/
structure Observed where
  system : System
  held : List (Option Task) := []
  finished : List Task := []
  total_stolen : Nat := 0

/-- `process_task_safe` returns with this step. -/
def finishes (s : System) : Label → Bool
  | .worker i execution _ => match (s.workers[i]?).bind holding with
    | some job => (job.step s.config s.shared execution).2.isNone
    | none => false
  | _ => false

/-- The tasks that `steal` or `steal_batch` finds with this step. -/
def steals (s : System) : Label → Nat
  | .worker i _ _ => match s.workers[i]? with
    | some w => match w.pc with
      | .steal (victim :: _) | .steal_batch victim _ _ =>
        if ((s.shared.deques[victim]?).bind List.head?).isSome then 1 else 0
      | _ => 0
    | none => 0
  | _ => 0

/-- What the observer notes of a step. -/
def Observed.note (o : Observed) (label : Label) (system : System) : Observed :=
  match label with
  | .worker i _ _ =>
    { system
      held := match takes o.system label with
        | some task => o.held.set i (some task)
        | none => if finishes o.system label then o.held.set i none else o.held
      finished := if finishes o.system label then o.finished ++ (o.held[i]?).join.toList else o.finished
      total_stolen := o.total_stolen + steals o.system label }
  | .start_worker _ => { o with system, held := o.held ++ [none] }
  | _ => { o with system }

def Observed.step (o : Observed) (label : Label) : Option Observed := (o.system.step label).map (o.note label)

def Observed.init (config : SchedulerConfig) (n : Nat) : Observed := { system := .init config n }

/-- The tasks that sends have pushed. -/
def pushed (s : System) : List Task := s.shared.history.enqueued.map (·.2)

/-- How often a task is in the injectors. -/
def inLanes (q : Injectors) (task : Task) : Nat :=
  q.global.count task + q.critical.count task + q.high.count task + q.normal.count task + q.low.count task

/-- In how many places a task is. -/
def places (o : Observed) (task : Task) : Nat :=
  inLanes o.system.shared.injectors task + o.held.count (some task) + o.finished.count task

/-- Every pushed task is in one place, the tasks held are those of the workers at
    work, and nothing is in a local queue or was stolen. -/
structure Conserved (o : Observed) : Prop where
  one : ∀ task ∈ pushed o.system, places o task = 1
  only : ∀ task, task ∉ pushed o.system → places o task = 0
  holders : o.held.map (Option.map (·.actor_id)) = o.system.workers.map (fun w => (holding w).map (·.actor_id))
  empty : ∀ d ∈ o.system.shared.deques, d = []
  unstolen : o.total_stolen = 0

/-- The observer sees every run. -/
theorem observed {config : SchedulerConfig} {n : Nat} {s : System} (reached : Reachable System.step (.init config n) s) :
    ∃ o : Observed, o.system = s ∧ Reachable Observed.step (.init config n) o := by
  induction reached with
  | start => exact ⟨.init config n,rfl,.start⟩
  | @next s s' label before _ stepped ih =>
    obtain ⟨o,rfl,reached⟩ := ih
    have noted : o.step label = some (o.note label s') := by
      rw [Observed.step,stepped]
      rfl
    exact ⟨o.note label s',by cases label <;> rfl,.next reached trivial noted⟩

/-! ## One step -/

theorem inLanes_set (q : Injectors) (lane : Lane) (tasks : List Task) (task : Task) :
    inLanes (q.set lane tasks) task + (q.get lane).count task = inLanes q task + tasks.count task := by
  cases lane <;> simp only [inLanes,Injectors.set,Injectors.get] <;> omega

theorem steals_none {s : System} (noLocal : NoLocal s) (label : Label) : steals s label = 0 := by
  have nobody : ∀ victim : Nat, ((s.shared.deques[victim]?).bind List.head?).isSome = false := by
    intro victim
    cases found : s.shared.deques[victim]? with
    | none => rfl
    | some deque =>
      rw [noLocal.empty deque (List.mem_of_getElem? found)]
      rfl
  cases label with
  | worker i =>
    simp only [steals]
    split
    · split <;> simp [nobody]
    · rfl
  | _ => rfl

/-- Whoever takes a task was free, and holds it afterwards. -/
theorem takes_holds {s : System} {i : Nat} {execution : Execution} {moved : Nat} {w w' : Worker} {g' : Shared} {task : Task}
    (found : s.workers[i]? = some w) (stepped : w.step s.config s.shared execution moved = some (g',w'))
    (taken : takes s (.worker i execution moved) = some task) : holding w = none ∧ holding w' = some (.start task) := by
  simp only [takes,found] at taken
  obtain ⟨worker_id,deque,iteration,last_version,stealers,index,pc⟩ := w
  cases pc with
  | pop lane =>
    obtain ⟨rest,head⟩ := List.head?_eq_some_iff.mp taken
    simp only [Worker.step,head] at stepped
    cases stepped
    exact ⟨rfl,rfl⟩
  | pop_local =>
    obtain ⟨own,here,first⟩ := Option.bind_eq_some_iff.mp taken
    obtain ⟨rest,rfl⟩ := List.head?_eq_some_iff.mp first
    simp only [Worker.step,here] at stepped
    cases stepped
    exact ⟨rfl,rfl⟩
  | steal victims =>
    cases victims with
    | nil => cases taken
    | cons victim victims =>
      obtain ⟨own,here,first⟩ := Option.bind_eq_some_iff.mp taken
      obtain ⟨rest,rfl⟩ := List.head?_eq_some_iff.mp first
      simp only [Worker.step,here] at stepped
      cases stepped
      exact ⟨rfl,rfl⟩
  | _ => cases taken

theorem takes_nothing {s : System} {i : Nat} {execution : Execution} {moved : Nat} {w w' : Worker} {g' : Shared}
    (found : s.workers[i]? = some w) (stepped : w.step s.config s.shared execution moved = some (g',w'))
    (idle : holding w = none → holding w' = none) : takes s (.worker i execution moved) = none := by
  cases taken : takes s (.worker i execution moved) with
  | none => rfl
  | some task =>
    obtain ⟨free,holds⟩ := takes_holds found stepped taken
    rw [idle free] at holds
    cases holds

/-- What holds in every run. -/
structure Kept (o : Observed) : Prop extends NoLocal o.system where
  account : ∀ task, places o task = (pushed o.system).count task
  holders : o.held.map (Option.map (·.actor_id)) = o.system.workers.map (fun w => (holding w).map (·.actor_id))
  unstolen : o.total_stolen = 0

/-- What the observer has noted for a worker. -/
theorem holder {o : Observed} (kept : Kept o) {i : Nat} {w : Worker} (found : o.system.workers[i]? = some w) :
    ∃ slot, o.held[i]? = some slot ∧ slot.map (·.actor_id) = (holding w).map (·.actor_id) := by
  have same := congrArg (fun list => list[i]?) kept.holders
  simp only [List.getElem?_map,found,Option.map_some] at same
  obtain ⟨slot,here,equal⟩ := Option.map_eq_some_iff.mp same
  exact ⟨slot,here,equal⟩

theorem count_slot {held : List (Option Task)} {i : Nat} {slot : Option Task} (found : held[i]? = some slot)
    (new : Option Task) (task : Task) :
    (held.set i new).count (some task) + (if slot = some task then 1 else 0) =
      held.count (some task) + (if new = some task then 1 else 0) := by
  have sums := sum_map_set (fun slot : Option Task => if slot = some task then 1 else 0) found new
  have counts : ∀ slots : List (Option Task),
      (slots.map (fun slot => if slot = some task then 1 else 0)).sum = slots.count (some task) := by
    intro slots
    induction slots with
    | nil => rfl
    | cons first rest ih =>
      rw [List.map_cons,List.sum_cons,ih,List.count_cons,Nat.add_comm]
      simp only [beq_iff_eq]
  rw [counts,counts] at sums
  exact sums

theorem kept_worker {o : Observed} {i : Nat} {execution : Execution} {moved : Nat} {w w' : Worker} {g' : Shared}
    (kept : Kept o) (found : o.system.workers[i]? = some w)
    (stepped : w.step o.system.config o.system.shared execution moved = some (g',w'))
    (noLocal : NoLocal { o.system with shared := g', workers := o.system.workers.set i w' }) :
    Kept (o.note (.worker i execution moved) { o.system with shared := g', workers := o.system.workers.set i w' }) := by
  obtain ⟨slot,here,same⟩ := holder kept found
  have account := kept.account
  have unstolen : o.total_stolen + steals o.system (.worker i execution moved) = 0 := by
    rw [kept.unstolen,steals_none kept.toNoLocal]
  obtain ⟨move,-⟩ := worker_move kept.empty (kept.carried w (List.mem_of_getElem? found)) stepped
  have written : ∀ slot', slot'.map Task.actor_id = (holding w').map Job.actor_id →
      (o.held.set i slot').map (Option.map (·.actor_id)) =
        (o.system.workers.set i w').map (fun w => (holding w).map (·.actor_id)) := by
    intro slot' equal
    rw [List.map_set,List.map_set,kept.holders,equal]
  cases move with
  | look free still =>
    have nothing := takes_nothing found stepped (fun _ => still)
    have goes : finishes o.system (.worker i execution moved) = false := by
      simp [finishes,found,free]
    have empty : slot = none := by
      rw [free] at same
      simpa using same
    refine ⟨noLocal,?_,?_,unstolen⟩
    · intro task
      simp only [places,Observed.note,nothing,goes]
      exact account task
    · simp only [Observed.note,nothing,goes]
      rw [← set_same here]
      exact written slot (by rw [empty,still]; rfl)
  | @take _ lane task rest free head holds pops =>
    have taken : takes o.system (.worker i execution moved) = some task := by
      simp [takes,found,pops,head]
    have goes : finishes o.system (.worker i execution moved) = false := by
      simp [finishes,found,free]
    have empty : slot = none := by
      rw [free] at same
      simpa using same
    refine ⟨noLocal,?_,?_,unstolen⟩
    · intro other
      have lanes := inLanes_set o.system.shared.injectors lane rest other
      have slots := count_slot here (some task) other
      have before := account other
      rw [head,List.count_cons] at lanes
      simp only [empty,beq_iff_eq,Option.some.injEq,reduceCtorEq,if_false] at lanes slots
      simp only [places,Observed.note,taken,goes] at before ⊢
      show inLanes (o.system.shared.injectors.set lane rest) other + _ + _ = (pushed o.system).count other
      simp only [Bool.false_eq_true,if_false]
      omega
    · simp only [Observed.note,taken]
      exact written (some task) (by rw [holds]; rfl)
  | @work _ job _ holds steps =>
    have frame := effect_frame (step_effect steps)
    have nothing := takes_nothing found stepped (fun free => by rw [holds] at free; cases free)
    have pushes : pushed { o.system with shared := g', workers := o.system.workers.set i w' } = pushed o.system := by
      simp only [pushed,frame.enqueued]
    cases next : holding w' with
    | some job' =>
      have goes : finishes o.system (.worker i execution moved) = false := by
        simp [finishes,found,holds,steps,next]
      rw [next] at steps
      refine ⟨noLocal,?_,?_,unstolen⟩
      · intro task
        have before := account task
        simp only [places,Observed.note,nothing,goes,pushes,frame.injectors] at before ⊢
        exact before
      · simp only [Observed.note,nothing,goes]
        rw [← set_same here]
        refine written slot ?_
        rw [same,holds,next]
        simp [(job_hand steps).1]
    | none =>
      have goes : finishes o.system (.worker i execution moved) = true := by
        simp [finishes,found,holds,steps,next]
      obtain ⟨task,rfl⟩ : ∃ task, slot = some task := by
        rw [holds] at same
        obtain ⟨task,equal,-⟩ := Option.map_eq_some_iff.mp same
        exact ⟨task,equal⟩
      refine ⟨noLocal,?_,?_,unstolen⟩
      · intro other
        have slots := count_slot here none other
        have before := account other
        simp only [Option.some.injEq,reduceCtorEq,if_false] at slots
        simp only [places,Observed.note,nothing,goes,pushes,frame.injectors,here,Option.join_some,Option.toList_some,
          List.count_append,List.count_singleton,if_true,beq_iff_eq] at before ⊢
        omega
      · simp only [Observed.note,nothing,goes]
        exact written none (by rw [next]; rfl)

/-- Clients touch the injectors only to push the task of a send. -/
theorem client_pushes {config : SchedulerConfig} {g g' : Shared} {i : Nat} {call : Call} {c c' : Client}
    (moves : ClientMove config g i call c g' c') :
    (g'.injectors = g.injectors ∧ g'.history.enqueued = g.history.enqueued) ∨
      ∃ lane task, g'.injectors = g.injectors.set lane (g.injectors.get lane ++ [task]) ∧
        g'.history.enqueued = g.history.enqueued ++ [(i,task)] := by
  cases moves with
  | enter =>
    obtain ⟨next,same⟩ := enter_frame g call
    rw [same]
    exact .inl ⟨rfl,rfl⟩
  | enqueue => exact .inr ⟨_,_,rfl,rfl⟩
  | look | accept | refuse | set_state | kill | clear | unregister => exact .inl ⟨rfl,rfl⟩

theorem kept_client {o : Observed} {i : Nat} {call : Call} {admitted : Bool} {c c' : Client} {g' : Shared} (kept : Kept o)
    (moves : ClientMove o.system.config o.system.shared i call c g' c')
    (noLocal : NoLocal { o.system with shared := g', clients := o.system.clients.set i c' }) :
    Kept (o.note (.client i call admitted) { o.system with shared := g', clients := o.system.clients.set i c' }) := by
  refine ⟨noLocal,?_,kept.holders,kept.unstolen⟩
  intro task
  have before := kept.account task
  simp only [places,pushed,Observed.note] at before ⊢
  rcases client_pushes moves with ⟨injectors,enqueued⟩ | ⟨lane,new,injectors,enqueued⟩
  · rw [injectors,enqueued]
    exact before
  · have lanes := inLanes_set o.system.shared.injectors lane (o.system.shared.injectors.get lane ++ [new]) task
    rw [injectors,enqueued,List.map_append,List.count_append]
    rw [List.count_append] at lanes
    simp only [List.map_cons,List.map_nil]
    omega

theorem kept_step {o o' : Observed} {label : Label} (kept : Kept o) (stepped : o.step label = some o') : Kept o' := by
  obtain ⟨s',moved,rfl⟩ := Option.map_eq_some_iff.mp stepped
  obtain ⟨move,noLocal⟩ := step_move kept.toNoLocal moved
  cases move with
  | worker found moves =>
    obtain ⟨w,here,rest⟩ := Option.bind_eq_some_iff.mp moved
    obtain ⟨⟨g',w'⟩,steps,same⟩ := Option.bind_eq_some_iff.mp rest
    rw [← Option.some.inj same] at noLocal ⊢
    exact kept_worker kept here steps noLocal
  | client found moves => exact kept_client kept moves noLocal
  | drop_send | spawn | receive | set_running => exact ⟨noLocal,kept.account,kept.holders,kept.unstolen⟩
  | @start_worker worker_id w free =>
    refine ⟨noLocal,?_,?_,kept.unstolen⟩
    · intro task
      have before := kept.account task
      simp only [places,Observed.note,List.count_append] at before ⊢
      exact before
    · simp only [Observed.note,List.map_append,kept.holders,List.map_cons,List.map_nil,free]
      rfl

theorem kept_reach {config : SchedulerConfig} {n : Nat} {o : Observed}
    (reached : Reachable Observed.step (.init config n) o) : Kept o := by
  refine reached.invariant ⟨(sane_init config n).toNoLocal,fun _ => rfl,rfl,rfl⟩ ?_
  exact fun _ _ _ kept _ stepped => kept_step kept stepped

/-- What is observed is a run of the scheduler. -/
theorem observes {config : SchedulerConfig} {n : Nat} {o : Observed}
    (reached : Reachable Observed.step (.init config n) o) : Reachable System.step (.init config n) o.system := by
  induction reached with
  | start => exact .start
  | @next o o' label before _ stepped ih =>
    obtain ⟨s',moved,rfl⟩ := Option.map_eq_some_iff.mp stepped
    have same : (o.note label s').system = s' := by cases label <;> rfl
    rw [same]
    exact .next ih trivial moved

/-- Every send pushes a task of its own. -/
theorem pushed_once {config : SchedulerConfig} (fits : config.mailbox_config.capacity < 2 ^ 64) {n : Nat} {s : System}
    (reached : Reachable System.step (.init config n) s) (task : Task) : (pushed s).count task ≤ 1 := by
  have carries : 1 ≤ weight (only task.message) task.actor_id task := by
    rw [weight_only,if_pos rfl]
    exact List.count_pos_iff.mpr List.mem_cons_self
  have counts := count_le_sum_map (weight (only task.message) task.actor_id) carries (pushed s)
  have once := carried_once fits task.actor_id task.message reached
  rw [pushed,List.map_map] at counts
  unfold forwarded carried at once
  exact counts.trans (by simp only [Function.comp_def]; omega)

/-- In every run each pushed task is in one injector, with one worker or finished,
    the local queues are empty and nothing is stolen. -/
theorem tasks_conserved {config : SchedulerConfig} (fits : config.mailbox_config.capacity < 2 ^ 64) {n : Nat}
    {o : Observed} (reached : Reachable Observed.step (.init config n) o) : Conserved o := by
  have kept := kept_reach reached
  refine ⟨?_,?_,kept.holders,kept.empty,kept.unstolen⟩
  · intro task listed
    rw [kept.account]
    exact Nat.le_antisymm (pushed_once fits (observes reached) task) (List.count_pos_iff.mpr listed)
  · intro task unlisted
    rw [kept.account]
    exact List.count_eq_zero_of_not_mem unlisted

/-- Three sends, one of them urgent: one task is finished and one is held when the
    scheduler is stopped and started again. -/
def restarted : List Label :=
  let work (i n : Nat) : List Label := List.replicate n (.worker i (.returns .Success) 0)
  started ++ [.start_worker 1] ++ sending_payload (.Custom [1]) ++ sending_payload (.Custom [2]) ++
    List.replicate 6 (.client 0 (.send ⟨1⟩ { sender := none, payload := .Custom [3], priority := .High }) true) ++
    work 0 3 ++ work 1 7 ++ work 0 5 ++ [.set_running false] ++ work 0 1 ++ [.set_running true,.start_worker 0]

theorem tasks_conserved_restarted : ∃ o, Reachable Observed.step (.init {} 1) o ∧
    o.finished.map (·.message.payload) = [.Custom [3]] ∧
    o.held.map (Option.map (·.message.payload)) = [none,some (.Custom [1]),none] ∧
    o.system.shared.injectors.global.map (·.message.payload) = [.Custom [2]] ∧ Conserved o := by
  have seen : (run Observed.step (.init {} 1) restarted).map (fun o => (o.finished.map (·.message.payload),
        o.held.map (Option.map (·.message.payload)),o.system.shared.injectors.global.map (·.message.payload))) =
      some ([.Custom [3]],[none,some (.Custom [1]),none],[.Custom [2]]) := by decide +kernel
  obtain ⟨o,runs,same⟩ := Option.map_eq_some_iff.mp seen
  simp only [Prod.mk.injEq] at same
  have reached : Reachable Observed.step (.init {} 1) o := reachable_run .start runs
  exact ⟨o,reached,same.1,same.2.1,same.2.2,tasks_conserved (by decide) reached⟩

end ActorKit.Custody
