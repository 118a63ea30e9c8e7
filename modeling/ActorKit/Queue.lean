import ActorKit.Basic

/-!
# Tasks and injectors

The model of `queue.rs`: tasks, the four injectors of the priority queue, the
global one and the batch steal from other workers. A steal from an injector that
is told to retry is no step.
-/

namespace ActorKit.queue

/-- A task to be executed by a worker: a message and the rest of its batch. -/
structure Task where
  actor_id : ActorId
  message : Message
  priority : Priority
  additional_messages : List Message := []
deriving DecidableEq, Repr

/-- The messages of a task in the order they are processed. -/
def Task.messages (task : Task) : List Message := task.message :: task.additional_messages

/-- The injectors: the lanes of the priority queue, and the global queue. -/
inductive Lane where
  | critical
  | high
  | normal
  | low
  | global
deriving DecidableEq, Repr

/-- The contents of the injectors, oldest first. -/
structure Injectors where
  critical : List Task := []
  high : List Task := []
  normal : List Task := []
  low : List Task := []
  global : List Task := []
deriving DecidableEq, Repr

def Injectors.get (q : Injectors) : Lane → List Task
  | .critical => q.critical
  | .high => q.high
  | .normal => q.normal
  | .low => q.low
  | .global => q.global

def Injectors.set (q : Injectors) (lane : Lane) (tasks : List Task) : Injectors :=
  match lane with
  | .critical => { q with critical := tasks }
  | .high => { q with high := tasks }
  | .normal => { q with normal := tasks }
  | .low => { q with low := tasks }
  | .global => { q with global := tasks }

/-- The lane of the priority queue a task is pushed to. -/
def priority_lane : Priority → Lane
  | .Critical => .critical
  | .High => .high
  | .Normal => .normal
  | .Low => .low

/-- Where `send`, `send_batch` and `try_send` push a task. -/
def lane_of (priority_scheduling : Bool) (task : Task) : Lane :=
  if priority_scheduling && Priority.level .High ≤ task.priority.level then priority_lane task.priority else .global

@[simp] theorem Injectors.get_set (q : Injectors) (lane other : Lane) (tasks : List Task) :
    (q.set lane tasks).get other = if other = lane then tasks else q.get other := by
  cases lane <;> cases other <;> rfl

/-- The oldest task of a lane. -/
def Injectors.steal (q : Injectors) (lane : Lane) : Option (Task × Injectors) :=
  match q.get lane with
  | task :: rest => some (task,q.set lane rest)
  | [] => none

/-- `PriorityQueue::pop`: the highest priority task available. -/
def Injectors.pop (q : Injectors) : Option (Task × Injectors) :=
  (q.steal .critical).or ((q.steal .high).or ((q.steal .normal).or (q.steal .low)))

/-- `WorkQueue::steal_global`. -/
def Injectors.steal_global (q : Injectors) : Option (Task × Injectors) := q.steal .global

/-- A task pushed where `send`, `send_batch` and `try_send` push it. -/
def Injectors.push (q : Injectors) (priority_scheduling : Bool) (task : Task) : Injectors :=
  q.set (lane_of priority_scheduling task) (q.get (lane_of priority_scheduling task) ++ [task])

/-! ## Batch steals -/

/-- What a steal returns. -/
inductive Steal where
  | Empty
  | Success (task : Task)
  | Retry
deriving DecidableEq, Repr

/-- `Stealer::steal_batch_and_pop` on a FIFO queue: it returns the oldest task and
    moves some of those behind it. How many, and whether it has to be tried again,
    is the answer of the library. -/
def steal_batch_and_pop (answer : Option Nat) (victim dest : List Task) : Steal × List Task × List Task :=
  match answer,victim with
  | none,_ => (.Retry,victim,dest)
  | some _,[] => (.Empty,[],dest)
  | some n,task :: behind => (.Success task,behind.drop n,dest ++ behind.take n)

/-- What a loop of steals leaves: the answers not used, the destination and the
    count. -/
structure Loot where
  answers : List (Option Nat)
  dest : List Task
  stolen : Nat
deriving DecidableEq, Repr

/-- The inner loop of `steal_batch` on one victim; `none` when the answers end
    before the loop does. -/
def steal_until_empty : List (Option Nat) → List Task → List Task → Nat → Option Loot
  | [],_,_,_ => none
  | answer :: answers,victim,dest,stolen => match steal_batch_and_pop answer victim dest with
    | (.Success task,victim,dest) => steal_until_empty answers victim (dest ++ [task]) (stolen + 1)
    | (.Empty,_,dest) => some { answers,dest,stolen }
    | (.Retry,victim,dest) => steal_until_empty answers victim dest stolen

/-- Work stealer for stealing from other workers: the queues it steals from and
    the index for round-robin stealing. -/
structure WorkStealer where
  stealers : List (List Task)
  index : Nat := 0
deriving DecidableEq, Repr

/-- The indices of a round over `len` victims, from `start` on. -/
def round_robin (start len : Nat) : List Nat := (List.range len).map (fun i => (start + i) % 2 ^ 64 % len)

/-- The outer loop of `steal_batch` over the victims that are left. -/
def WorkStealer.visit (max : Nat) : List Nat → List (Option Nat) → List (List Task) → List Task → Nat →
    Option (List (List Task) × List Task × Nat)
  | [],_,stealers,dest,stolen => some (stealers,dest,stolen)
  | idx :: rest,answers,stealers,dest,stolen =>
    if max ≤ stolen then some (stealers,dest,stolen)
    else do
      let victim ← stealers[idx]?
      let loot ← steal_until_empty answers victim dest stolen
      visit max rest loot.answers (stealers.set idx []) loot.dest loot.stolen

/-- Steal multiple tasks (batch steal): the stealer and the destination
    afterwards, and the count returned. -/
def WorkStealer.steal_batch (thief : WorkStealer) (answers : List (Option Nat)) (dest : List Task) (max : Nat) :
    Option (WorkStealer × List Task × Nat) :=
  if thief.stealers.isEmpty then some (thief,dest,0)
  else do
    let start := thief.index
    let (stealers,dest,stolen) ← visit max (round_robin start thief.stealers.length) answers thief.stealers dest 0
    some ({ stealers,index := (start + 1) % 2 ^ 64 },dest,stolen)

end ActorKit.queue
