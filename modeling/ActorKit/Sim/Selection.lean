import Mathlib.Data.List.Rotate
import ActorKit.Scheduler
import ActorKit.Sim.Scheduler
import ActorKit.Lib.Machine

/-!
# The selection order of the simulation and of a worker

The ready sets of the simulation keep everything of high or critical priority in
one queue, a worker looks for critical tasks first. Both select the same tasks
exactly as long as no pick finds a critical task behind a high one.
-/

namespace ActorKit.Sim.Selection
open ActorKit.queue ActorKit.scheduler ActorKit.sim

/-- A push of a task or a pick at some tick. -/
inductive Event where
  | push (t : SimTask)
  | pick (tick : Nat)

/-- The ready sets under the Fifo policy. -/
def readyStep (s : ReadySet × SimRng) : Event → (ReadySet × SimRng) × Except Failure (Option Task)
  | .push t => ((s.1.push t,s.2),.ok none)
  | .pick tick => match s.1.pick .Fifo s.2 tick with
    | .ok (picked,set,rng) => ((set,rng),.ok (picked.map (·.task)))
    | .error failure => (s,.error failure)

/-- What one iteration of `worker_loop` takes when the local queue is empty and
    there are no peers. -/
def worker_select (q : Injectors) : Option (Task × Injectors) := q.pop.or q.steal_global

/-- A single worker with priority scheduling on. -/
def workerStep (q : Injectors) : Event → Injectors × Except Failure (Option Task)
  | .push t => (q.push true t.task,.ok none)
  | .pick _ => match worker_select q with
    | some (task,q) => (q,.ok (some task))
    | none => (q,.ok none)

/-! ## The worker loop -/

/-- Calls of a worker while no other thread runs. -/
def calls (config : SchedulerConfig) : Nat → Shared × Worker → Option (Shared × Worker)
  | 0,s => some s
  | n + 1,(g,w) => (w.step config g (.returns .Success) 0).bind (calls config n)

/-- Where an iteration ends: with the task it selected, or at the head of the next
    one. -/
def Selected (g : Shared) (selection : Option (Task × Injectors)) (ended : Shared × Worker) : Prop :=
  match selection with
  | some (task,q) => ended.1 = { g with injectors := q }.log_taken task ∧ ended.2.pc = .process (.start task)
  | none => ended.1 = g ∧ ended.2.pc = .head

section
variable {config : SchedulerConfig} {g : Shared} {w : Worker}

/-- The calls from here on end an iteration as `selection` says. -/
def Ends (config : SchedulerConfig) (g : Shared) (selection : Option (Task × Injectors)) (s : Shared × Worker) : Prop :=
  ∃ n ended, calls config n s = some ended ∧ Selected g selection ended

theorem ends_then {selection : Option (Task × Injectors)} (s' : Shared × Worker) {s : Shared × Worker}
    (stepped : s.2.step config s.1 (.returns .Success) 0 = some s') (rest : Ends config g selection s') :
    Ends config g selection s := by
  obtain ⟨n,ended,ends,holds⟩ := rest
  exact ⟨n + 1,ended,by rw [calls,stepped]; exact ends,holds⟩

/-- A lane that has a task ends the search. -/
theorem pop_found {lane : Lane} {task : Task} {q : Injectors} (found : g.injectors.steal lane = some (task,q)) :
    Ends config g (some (task,q)) (g,{ w with pc := .pop lane }) := by
  unfold Injectors.steal at found
  split at found
  · next first rest here =>
    cases found
    refine ends_then ({ g with injectors := g.injectors.set lane rest }.log_taken task,
      { w with pc := .process (.start task) }) ?_ ⟨0,_,rfl,rfl,rfl⟩
    simp only [Worker.step,here]
  · cases found

theorem pop_missed {lane : Lane} {selection : Option (Task × Injectors)} (none : g.injectors.steal lane = none)
    (rest : Ends config g selection (g,({ w with pc := .pop lane } : Worker).after_lane lane)) :
    Ends config g selection (g,{ w with pc := .pop lane }) := by
  refine ends_then _ ?_ rest
  unfold Injectors.steal at none
  split at none
  · cases none
  · next empty => simp only [Worker.step,empty]

variable (alone : w.stealers = [])
include alone

theorem global_selects : Ends config g g.injectors.steal_global (g,{ w with pc := .pop .global }) := by
  unfold Injectors.steal_global
  cases found : g.injectors.steal .global with
  | some selected => exact pop_found found
  | none =>
    refine pop_missed found ?_
    -- Nobody to steal from.
    refine ends_then (g,{ w with pc := .head }) ?_ ⟨0,_,rfl,rfl,rfl⟩
    simp [Worker.after_lane,Worker.rotated,Worker.victims,alone,Worker.step,WorkerPc.next_victim]

variable (idle : g.deques[w.deque]? = some [])
include idle

/-- The search through the lanes selects what `worker_select` selects. -/
theorem lanes_select : Ends config g (worker_select g.injectors) (g,{ w with pc := .pop .critical }) := by
  unfold worker_select Injectors.pop
  cases critical : g.injectors.steal .critical with
  | some selected => exact pop_found critical
  | none =>
    refine pop_missed critical ?_
    cases high : g.injectors.steal .high with
    | some selected => exact pop_found high
    | none =>
      refine pop_missed high ?_
      cases normal : g.injectors.steal .normal with
      | some selected => exact pop_found normal
      | none =>
        refine pop_missed normal ?_
        cases low : g.injectors.steal .low with
        | some selected => exact pop_found low
        | none =>
          refine pop_missed low (ends_then (g,{ w with pc := .pop .global }) ?_ (global_selects alone))
          simp only [Worker.step,Worker.after_lane,idle]

/-- One iteration of the loop of a worker that has no peers. -/
theorem iteration_selects (head : w.pc = .head) (running : g.running = true)
    (single : ∀ stealer ∈ g.stealers, stealer.1 = w.worker_id) : Ends config g (worker_select g.injectors) (g,w) := by
  have lanes : ∀ w' : Worker, w'.stealers = [] → w'.deque = w.deque → w'.pc = .pop .critical →
      Ends config g (worker_select g.injectors) (g,w') := by
    intro w' alone' same here
    have search : Ends config g (worker_select g.injectors) (g,{ w' with pc := .pop .critical }) :=
      lanes_select alone' (same ▸ idle)
    rw [← here] at search
    exact search
  by_cases due : (w.iteration + 1) % 2 ^ 32 % max config.stealer_refresh_interval 1 = 0
  · refine ends_then (g,{ w with iteration := (w.iteration + 1) % 2 ^ 32, pc := .version }) ?_ ?_
    · simp only [Worker.step,head,running,Bool.not_true,Bool.false_eq_true,if_false,due,if_true]
    · by_cases news : g.stealers.length ≠ w.last_version
      · refine ends_then (g,{ w with iteration := (w.iteration + 1) % 2 ^ 32, pc := .refresh g.stealers.length })
          (by simp [Worker.step,news]) (ends_then _ rfl (lanes _ ?_ rfl rfl))
        -- The only stealer is the worker's own.
        have own : g.stealers.filter (fun s => s.1 ≠ w.worker_id) = [] := by
          refine List.filter_eq_nil_iff.mpr (fun stealer member => ?_)
          simpa using single stealer member
        simp only [own,List.map_nil]
      · refine ends_then (g,{ w with iteration := (w.iteration + 1) % 2 ^ 32, pc := .pop .critical }) ?_
          (lanes _ alone rfl rfl)
        simp only [Worker.step,news,if_false]
  · refine ends_then (g,{ w with iteration := (w.iteration + 1) % 2 ^ 32, pc := .pop .critical }) ?_ (lanes _ alone rfl rfl)
    simp only [Worker.step,head,running,Bool.not_true,Bool.false_eq_true,if_false,due]

end

/-! ## Both selections side by side -/

/-- No critical task waits behind a high one: when one is queued at all, a
    critical task is at the front of the priority set. -/
def InOrder (set : ReadySet) : Bool :=
  match set.priority with
  | [] => true
  | first :: rest => first.task.priority == .Critical || rest.all (fun t => t.task.priority != .Critical)

/-- Every pick of a run happens in order. -/
def PicksInOrder (s : ReadySet × SimRng) : List Event → Prop
  | [] => True
  | event :: rest =>
    (match event with
      | .push _ => True
      | .pick _ => InOrder s.1 = true) ∧ PicksInOrder (readyStep s event).1 rest

/-- The same tasks are queued on both sides. -/
structure Mirrors (set : ReadySet) (q : Injectors) : Prop where
  urgent : ∀ t ∈ set.priority, t.task.priority = .High ∨ t.task.priority = .Critical
  critical : q.critical = (set.priority.filter (fun t => t.task.priority == .Critical)).map (·.task)
  high : q.high = (set.priority.filter (fun t => t.task.priority == .High)).map (·.task)
  normal : q.normal = []
  low : q.low = []
  global : q.global = set.ready.map (·.task)

theorem mirrors_empty : Mirrors {} {} := ⟨(fun _ member => by cases member),rfl,rfl,rfl,rfl,rfl⟩

/-- A task of high or critical priority goes to the priority set, and to the lane
    of its priority. -/
theorem push_urgent {set : ReadySet} {q : Injectors} (mirrors : Mirrors set q) {t : SimTask}
    (level : t.task.priority = .High ∨ t.task.priority = .Critical) : Mirrors (set.push t) (q.push true t.task) := by
  have routed : Priority.level .High ≤ t.task.priority.level := by
    rcases level with level | level
    · rw [level]
    · rw [level]; decide
  have pushed : (set.push t).priority = set.priority ++ [t] ∧ (set.push t).ready = set.ready := by
    simp only [ReadySet.push,routed,if_true,and_self]
  have urgent : ∀ t' ∈ (set.push t).priority, t'.task.priority = .High ∨ t'.task.priority = .Critical := by
    rw [pushed.1]
    intro t' member
    rcases List.mem_append.mp member with old | new
    · exact mirrors.urgent t' old
    · obtain rfl : t' = t := by simpa using new
      exact level
  rcases level with level | level
  · have lane : q.push true t.task = { q with high := q.high ++ [t.task] } := by
      unfold Injectors.push lane_of
      rw [level]
      rfl
    rw [lane]
    constructor
    · exact urgent
    · simp [pushed.1,mirrors.critical,level]
    · simp [pushed.1,mirrors.high,level]
    · exact mirrors.normal
    · exact mirrors.low
    · rw [pushed.2]; exact mirrors.global
  · have lane : q.push true t.task = { q with critical := q.critical ++ [t.task] } := by
      unfold Injectors.push lane_of
      rw [level]
      rfl
    rw [lane]
    constructor
    · exact urgent
    · simp [pushed.1,mirrors.critical,level]
    · simp [pushed.1,mirrors.high,level]
    · exact mirrors.normal
    · exact mirrors.low
    · rw [pushed.2]; exact mirrors.global

theorem push_mirrors {set : ReadySet} {q : Injectors} (mirrors : Mirrors set q) (t : SimTask) :
    Mirrors (set.push t) (q.push true t.task) := by
  by_cases routed : Priority.level .High ≤ t.task.priority.level
  · refine push_urgent mirrors ?_
    revert routed
    cases t.task.priority <;> decide
  · have pushed : (set.push t).priority = set.priority ∧ (set.push t).ready = set.ready ++ [t] := by
      simp only [ReadySet.push,routed,if_false,and_self]
    have lane : q.push true t.task = { q with global := q.global ++ [t.task] } := by
      simp only [Injectors.push,lane_of,routed,decide_false,Bool.and_false,Bool.false_eq_true,if_false]
      rfl
    rw [lane]
    constructor
    · rw [pushed.1]; exact mirrors.urgent
    · rw [pushed.1]; exact mirrors.critical
    · rw [pushed.1]; exact mirrors.high
    · exact mirrors.normal
    · exact mirrors.low
    · rw [pushed.2,List.map_append,← mirrors.global]
      rfl

/-- What a pick under the Fifo policy takes, and what it leaves. -/
theorem pick_fifo (set : ReadySet) (rng : SimRng) (tick : Nat) :
    ∃ set', set.pick .Fifo rng tick = .ok ((set.priority ++ set.ready).head?,set',rng) ∧
      set'.priority = set.priority.tail ∧ set'.ready = if set.priority = [] then set.ready.tail else set.ready := by
  cases urgent : set.priority with
  | cons first rest =>
    simp only [ReadySet.pick,ReadySet.select,urgent,bind,Except.bind]
    exact ⟨_,rfl,rfl,rfl⟩
  | nil =>
    cases plain : set.ready with
    | nil =>
      simp only [ReadySet.pick,ReadySet.select,urgent,ReadySet.remove,plain,bind,Except.bind]
      exact ⟨set,rfl,urgent,by simp [plain]⟩
    | cons first rest =>
      simp only [ReadySet.pick,ReadySet.select,urgent,ReadySet.remove,plain,bind,Except.bind]
      exact ⟨_,rfl,rfl,rfl⟩

section
variable {q : Injectors} {task : Task} {rest : List Task} (tick : Nat)

theorem pick_critical (critical : q.critical = task :: rest) :
    workerStep q (.pick tick) = ({ q with critical := rest },.ok (some task)) := by
  simp [workerStep,worker_select,Injectors.pop,Injectors.steal,Injectors.get,Injectors.set,critical]

theorem pick_high (critical : q.critical = []) (high : q.high = task :: rest) :
    workerStep q (.pick tick) = ({ q with high := rest },.ok (some task)) := by
  simp [workerStep,worker_select,Injectors.pop,Injectors.steal,Injectors.get,Injectors.set,critical,high]

variable (critical : q.critical = []) (high : q.high = []) (normal : q.normal = []) (low : q.low = [])
include critical high normal low

theorem pick_global (global : q.global = task :: rest) :
    workerStep q (.pick tick) = ({ q with global := rest },.ok (some task)) := by
  simp [workerStep,worker_select,Injectors.pop,Injectors.steal_global,Injectors.steal,Injectors.get,Injectors.set,
    critical,high,normal,low,global]

theorem pick_nothing (global : q.global = []) : workerStep q (.pick tick) = (q,.ok none) := by
  simp [workerStep,worker_select,Injectors.pop,Injectors.steal_global,Injectors.steal,Injectors.get,
    critical,high,normal,low,global]

end

/-- In order, both sides select the same. -/
theorem pick_mirrors {set : ReadySet} {q : Injectors} (mirrors : Mirrors set q) (ordered : InOrder set = true)
    (rng : SimRng) (tick : Nat) :
    Mirrors (readyStep (set,rng) (.pick tick)).1.1 (workerStep q (.pick tick)).1 ∧
    (readyStep (set,rng) (.pick tick)).2 = (workerStep q (.pick tick)).2 := by
  obtain ⟨set',picked,priority,ready⟩ := pick_fifo set rng tick
  have critical := mirrors.critical
  have high := mirrors.high
  have global := mirrors.global
  simp only [readyStep,picked]
  cases urgent : set.priority with
  | cons first rest =>
    simp only [urgent,List.tail_cons,reduceCtorEq,if_false] at priority ready
    have later : ∀ t ∈ set'.priority, t.task.priority = .High ∨ t.task.priority = .Critical := by
      rw [priority]
      exact fun t member => mirrors.urgent t (by rw [urgent]; exact List.mem_cons_of_mem _ member)
    rcases mirrors.urgent first (by rw [urgent]; exact List.mem_cons_self) with level | level
    · -- A high task at the front: nothing is critical.
      have none : rest.filter (fun t => t.task.priority == .Critical) = [] := by
        refine List.filter_eq_nil_iff.mpr (fun t member => ?_)
        have plain : ∀ t ∈ rest, t.task.priority ≠ .Critical := by simpa [InOrder,urgent,level] using ordered
        simpa using plain t member
      simp only [urgent,List.filter_cons,level,none] at critical high
      rw [pick_high tick critical high]
      refine ⟨⟨later,?_,?_,mirrors.normal,mirrors.low,?_⟩,rfl⟩
      · rw [critical,priority,none]
        rfl
      · rw [priority]
      · rw [ready,global]
    · simp only [urgent,List.filter_cons,level] at critical high
      rw [pick_critical tick critical]
      refine ⟨⟨later,?_,?_,mirrors.normal,mirrors.low,?_⟩,rfl⟩
      · rw [priority]
      · rw [high,priority]
        rfl
      · rw [ready,global]
  | nil =>
    simp only [urgent,List.tail_nil,if_true,List.filter_nil,List.map_nil] at priority ready critical high
    have later : ∀ t ∈ set'.priority, t.task.priority = .High ∨ t.task.priority = .Critical := by
      rw [priority]
      exact fun t member => absurd member List.not_mem_nil
    cases plain : set.ready with
    | nil =>
      rw [plain] at ready global
      rw [pick_nothing tick critical high mirrors.normal mirrors.low global]
      exact ⟨⟨later,by rw [critical,priority]; rfl,by rw [high,priority]; rfl,mirrors.normal,mirrors.low,
        by rw [ready,global]; rfl⟩,rfl⟩
    | cons first rest =>
      rw [plain] at ready global
      rw [pick_global tick critical high mirrors.normal mirrors.low global]
      exact ⟨⟨later,by rw [critical,priority]; rfl,by rw [high,priority]; rfl,mirrors.normal,mirrors.low,
        by rw [ready]; rfl⟩,rfl⟩

/-- Out of order they select different tasks. -/
theorem pick_differs {set : ReadySet} {q : Injectors} (mirrors : Mirrors set q) (disordered : InOrder set ≠ true)
    (rng : SimRng) (tick : Nat) : (readyStep (set,rng) (.pick tick)).2 ≠ (workerStep q (.pick tick)).2 := by
  obtain ⟨set',picked,-,-⟩ := pick_fifo set rng tick
  have critical := mirrors.critical
  cases urgent : set.priority with
  | nil => simp [InOrder,urgent] at disordered
  | cons first rest =>
    simp only [InOrder,urgent,ne_eq,Bool.or_eq_true,beq_iff_eq,not_or] at disordered
    obtain ⟨level,behind⟩ := disordered
    -- The first critical task behind.
    cases lane : set.priority.filter (fun t => t.task.priority == .Critical) with
    | nil =>
      refine absurd ?_ behind
      rw [List.all_eq_true]
      intro t member
      have := List.filter_eq_nil_iff.mp lane t (by rw [urgent]; exact List.mem_cons_of_mem _ member)
      simpa using this
    | cons found others =>
      have inside : found ∈ set.priority.filter (fun t => t.task.priority == .Critical) := by
        rw [lane]
        exact List.mem_cons_self
      have foundLevel : found.task.priority = .Critical := by simpa using (List.mem_filter.mp inside).2
      rw [lane,List.map_cons] at critical
      rw [pick_critical tick critical]
      simp only [readyStep,picked,urgent,List.cons_append,List.head?_cons,Option.map_some]
      intro same
      have equal : first.task = found.task := Option.some.inj (Except.ok.inj same)
      exact level (by rw [equal,foundLevel])

/-- From related states the selections of a run agree exactly when every pick of
    it happens in order. -/
theorem selections_agree_iff {s : ReadySet × SimRng} {q : Injectors} (mirrors : Mirrors s.1 q) (events : List Event) :
    (Machine.run readyStep s events).2 = (Machine.run workerStep q events).2 ↔ PicksInOrder s events := by
  induction events generalizing s q with
  | nil => simp [PicksInOrder]
  | cons event events ih =>
    simp only [Machine.run_cons,List.cons.injEq,PicksInOrder]
    cases event with
    | push t =>
      rw [ih (push_mirrors mirrors t)]
      simp [readyStep,workerStep]
    | pick tick =>
      by_cases ordered : InOrder s.1 = true
      · obtain ⟨kept,same⟩ := pick_mirrors mirrors ordered s.2 tick
        rw [ih kept]
        simp [same,ordered]
      · have differs := pick_differs mirrors ordered s.2 tick
        simp [differs,ordered]

/-- For every sequence of pushes and picks: the Fifo policy selects at every pick
    what a single worker selects exactly when no pick finds a critical task behind
    a high one. -/
theorem fifo_mirrors_worker_iff (rng : SimRng) (events : List Event) :
    (Machine.run readyStep ({},rng) events).2 = (Machine.run workerStep {} events).2 ↔ PicksInOrder ({},rng) events :=
  selections_agree_iff mirrors_empty events

/-- A critical task pushed after a high one: the simulation still picks the high
    one first, the worker does not. -/
theorem fifo_is_no_worker :
    let task (priority : Priority) : Task := { actor_id := ⟨1⟩, message := ⟨none,.Empty,priority,0⟩, priority }
    let events : List Event := [.push ⟨0,task .High,[0]⟩,.push ⟨0,task .Critical,[1]⟩,.pick 0]
    (Machine.run readyStep ({},{ draws := fun _ => 0 }) events).2 ≠ (Machine.run workerStep {} events).2 := by
  intro task events same
  have simulated : (Machine.run readyStep ({},{ draws := fun _ => 0 }) events).2 =
      [.ok none,.ok none,.ok (some (task .High))] := rfl
  have worked : (Machine.run workerStep {} events).2 = [.ok none,.ok none,.ok (some (task .Critical))] := rfl
  rw [simulated,worked] at same
  cases same

end ActorKit.Sim.Selection
