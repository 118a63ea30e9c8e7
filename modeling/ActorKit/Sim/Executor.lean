import ActorKit.Scheduler
import ActorKit.Sim.Faults

/-!
# The executor of the simulation

The model of `sim/executor.rs` and of the seam `ActorScheduler::sim_process_task`:
one task goes through the calls a worker makes, with nobody else running and the
simulation's executor answering.
-/

namespace ActorKit.sim
open ActorKit.registry ActorKit.queue ActorKit.scheduler

/-- `u64::to_le_bytes`. -/
def to_le_bytes (x : UInt64) : List UInt8 := (List.range 8).map (fun i => UInt8.ofNat (x.toNat / 256 ^ i))

/-- `u64::from_le_bytes`. -/
def from_le_bytes (bytes : List UInt8) : UInt64 := UInt64.ofNat (bytes.foldr (fun b rest => b.toNat + 256 * rest) 0)

/-- Identity tag recorded for one processed message. -/
inductive ExecTag where
  | Custom (mid : UInt64)
  | System
deriving DecidableEq, Repr

/-- One observed processing event. -/
structure ExecRecord where
  actor : ActorId
  tag : ExecTag
deriving DecidableEq, Repr

/-- Observation and crash-injection executor. -/
structure SimExecutor where
  crash_next : Bool := false
  records : List ExecRecord := []
deriving DecidableEq, Repr

/-- The identity a payload carries. -/
def tag_of : MessagePayload → ExecTag
  | .Custom bytes => if bytes.length = 8 then .Custom (from_le_bytes bytes) else .System
  | _ => .System

namespace SimExecutor

/-- Arm (or disarm) a crash on the next `execute` call. -/
def arm_crash (ex : SimExecutor) (crash : Bool) : SimExecutor := { ex with crash_next := crash }

/-- Drain all records observed so far. -/
def drain_records (ex : SimExecutor) : List ExecRecord × SimExecutor := (ex.records,{ ex with records := [] })

def execute (ex : SimExecutor) (actor_id : ActorId) (message : Message) : SimExecutor × Execution :=
  if ex.crash_next then ({ ex with crash_next := false },.panics)
  else ({ ex with records := ex.records ++ [⟨actor_id,tag_of message.payload⟩] },.returns .Success)

end SimExecutor

/-! ## One task -/

/-- The scheduler the seam stands for: an executor is installed. -/
def seam : SchedulerConfig := { executor := true }

/-- What a task in process has reached: the shared state, the executor and the
    number of messages counted as processed. -/
structure Progress where
  shared : Shared
  executor : SimExecutor
  processed : Nat := 0

/-- The next call of `process_task_safe`. -/
def Progress.step (p : Progress) (job : Job) : Progress × Option Job :=
  match job.stage with
  | .execute message =>
    let (executor,execution) := p.executor.execute job.actor_id message
    let (shared,next) := job.step seam p.shared execution
    ({ p with shared, executor },next)
  | .record =>
    let (shared,next) := job.step seam p.shared (.returns .Success)
    ({ p with shared, processed := p.processed + 1 },next)
  | _ =>
    let (shared,next) := job.step seam p.shared (.returns .Success)
    ({ p with shared },next)

/-- The calls of `process_task_safe` one after the other, at most `calls` of
    them. -/
def process_task_safe : Nat → Progress → Job → Except Failure Progress
  | 0,_,_ => .error .Diverges
  | calls + 1,p,job => match p.step job with
    | (p,none) => .ok p
    | (p,some job) => process_task_safe calls p job

/-- Runs one task through the processing pipeline. A message of an actor that is
    not suspended takes at most seven calls. -/
def sim_process_task (registry : ActorRegistry) (task : Task) (executor : SimExecutor) : Except Failure Progress :=
  process_task_safe (7 * task.messages.length) { shared := { registry }, executor } (.start task)

end ActorKit.sim
