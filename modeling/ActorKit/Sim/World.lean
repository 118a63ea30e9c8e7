import ActorKit.SupervisorTree
import ActorKit.Sim.Scheduler
import ActorKit.Sim.Executor
import ActorKit.Lib.Program

/-!
# The simulation

The model of `sim/mod.rs`. The methods of `Sim` are programs over its fields that
may panic. The draws, the clock readings of the supervisor and the random ids it
mints are streams the world is built with. Counters a run only increments are
unbounded; sums and products of configured quantities are checked. The virtual
clock is left out: nothing reads it.
-/

namespace ActorKit.sim
open ActorKit.mailbox ActorKit.registry ActorKit.queue ActorKit.scheduler ActorKit.supervisor
open ActorKit.Program (lift)

/-- Gap in ticks between a delivery and its duplicate copy. -/
def DUPLICATE_GAP_TICKS : Nat := 2

/-- Deterministic identity base. -/
def SIM_ID_BASE : BitVec 128 := 0xA77C70B151600000#128

/-- The actor id for `ordinal`'s `incarnation`; both are `u64`s. -/
def sim_actor_id (ordinal incarnation : Nat) : ActorId :=
  ⟨SIM_ID_BASE ||| (BitVec.setWidth 128 (BitVec.ofNat 64 ordinal) <<< 64)
    ||| BitVec.setWidth 128 (BitVec.ofNat 64 incarnation)⟩

/-- Registry name for an actor incarnation. -/
def actor_name (ord inc : Nat) : String := "sim-" ++ toString ord ++ "-v" ++ toString inc

/-- Supervisor child name. -/
def supervisor_name (ord : Nat) : String := "sim-" ++ toString ord

/-- Text carried by every injected crash. -/
def SIM_CRASH_MESSAGE : String := "actor-kit-sim: injected actor crash"

/-- Workload and world configuration for a simulation run. -/
structure SimConfig where
  actors : UInt64 := 4
  messages : UInt64 := 256
  mailbox : MailboxConfig := { capacity := 64, priority_queue := true, backpressure_count := 51 }
  policy : SchedulingPolicy := .Random
  faults : FaultConfig := {}
  max_restarts : UInt32 := 3
  injection_rate : F64 := .finite 4
  processing_per_tick : UInt64 := 4
  blocked_retries_per_tick : UInt64 := 64
deriving DecidableEq, Repr

/-! ## The trace -/

/-- Why a send was rejected. -/
inductive RejectReason where
  | Fault
  | DeadTarget
deriving DecidableEq, Repr

/-- One entry in the operation trace; `target` is the field `to`. -/
inductive TraceOp where
  | Spawn (ord : UInt64)
  | Send (mid target : UInt64)
  | BatchSend (first len target : UInt64)
  | Reject (mid target : UInt64) (reason : RejectReason)
  | Deliver (first len target : UInt64)
  | Blocked (first len target : UInt64)
  | Process (mid target : UInt64)
  | ProcessSystem (target : UInt64)
  | Crash (target dropped : UInt64)
  | Discard (first len target : UInt64)
  | Restart (target : UInt64) (allowed : Bool)
  | Kill (target dropped : UInt64)
deriving DecidableEq, Repr

/-- The tag byte and the fields of an entry. -/
def TraceOp.fields : TraceOp → UInt8 × List UInt64
  | .Spawn ord => (0,[ord])
  | .Send mid target => (1,[mid,target])
  | .BatchSend first len target => (2,[first,len,target])
  | .Reject mid target reason => (3,[mid,target,match reason with
    | .Fault => 0
    | .DeadTarget => 1])
  | .Deliver first len target => (4,[first,len,target])
  | .Blocked first len target => (5,[first,len,target])
  | .Process mid target => (6,[mid,target])
  | .ProcessSystem target => (7,[target])
  | .Crash target dropped => (8,[target,dropped])
  | .Discard first len target => (9,[first,len,target])
  | .Restart target allowed => (10,[target,if allowed then 1 else 0])
  | .Kill target dropped => (11,[target,dropped])

/-- Stable little-endian encoding for hashing. -/
def TraceOp.encode (op : TraceOp) : List UInt8 := op.fields.1 :: op.fields.2.flatMap to_le_bytes

/-- FNV-1a 64-bit. -/
def fnv1a (bytes : List UInt8) : UInt64 :=
  bytes.foldl (fun hash byte => (hash ^^^ UInt64.ofNat byte.toNat) * 0x00000100000001b3) 0xcbf29ce484222325

example : fnv1a [0x61] = 0xaf63dc4c8601ec8c := by decide +kernel

/-! ## The fields -/

/-- Aggregate counters for a simulation run. -/
structure SimStats where
  injected : Nat := 0
  rejected : Nat := 0
  delivered : Nat := 0
  processed : Nat := 0
  crashed : Nat := 0
  restarted : Nat := 0
  escalated : Nat := 0
  dropped : Nat := 0
  blocked : Nat := 0
  unblocked : Nat := 0
  delayed : Nat := 0
  duplicates : Nat := 0
  system_processed : Nat := 0
deriving DecidableEq, Repr

/-- Result of a simulation run. -/
structure SimOutcome where
  seed : UInt64
  quiesced : Bool
  steps : Nat
  trace_hash : UInt64
  trace_ops : Nat
  stats : SimStats
deriving DecidableEq, Repr

/-- Per-actor ledger used by the conservation audit. -/
structure ActorLedger where
  delivered : Nat := 0
  consumed : Nat := 0
  dropped : Nat := 0
  queued : Nat := 0
  incarnation : Nat := 0
  alive : Bool := false
deriving DecidableEq, Repr

/-- A delivery attempt payload. -/
structure DeliverPayload where
  ord : Nat
  msgs : List Message
  mids : List Nat
  was_blocked : Bool
deriving DecidableEq, Repr

/-- Time-ordered delayed delivery; `due` is the field `at`. -/
structure DeliverLater where
  due : Nat
  seq : Nat
  payload : DeliverPayload
deriving DecidableEq, Repr

/-- The order of the timer heap. -/
def DeliverLater.before (x y : DeliverLater) : Bool := x.due < y.due || (x.due == y.due && x.seq < y.seq)

/-- The timer heap, as the list of its entries in the order they are popped. -/
def push_later (entry : DeliverLater) : List DeliverLater → List DeliverLater
  | [] => [entry]
  | first :: rest => if entry.before first then entry :: first :: rest else first :: push_later entry rest

/-- What the supervisor takes from outside: the clock readings of each reported
    exit, and the ids `ActorId::new` mints. -/
structure Outside where
  readings : Nat → Readings
  ids : Nat → ActorId

/-- A deterministic simulation of the actor runtime. -/
structure Sim where
  seed : UInt64
  config : SimConfig
  rng : SimRng
  registry : ActorRegistry
  executor : SimExecutor := {}
  tree : SupervisorTree
  root : ActorId
  actors : List ActorId := []
  ordinals : Dict (BitVec 128) Nat := ∅
  ledger : List ActorLedger := []
  ready : ReadySet := {}
  delayed : List DeliverLater := []
  blocked : List DeliverPayload := []
  next_seq : Nat := 0
  next_mid : Nat := 0
  mid_times : List Nat
  mid_lost : List Bool
  tick : Nat := 0
  trace : List TraceOp := []
  stats : SimStats := {}
  outside : Outside
  /-- Exits reported so far. -/
  exits : Nat := 0
  /-- Ids minted so far. -/
  minted : Nat := 0

/-- A method of the simulation. -/
abbrev SimM := EStateM Failure Sim

/-- `expect` on an `Option`. -/
def expect {α : Type} (message : String) : Option α → Except Failure α
  | some a => .ok a
  | none => .error (.Expect message)

/-- `expect` on a `Result`. -/
def expect_ok {α : Type} (message : String) : Except Error α → Except Failure α
  | .ok a => .ok a
  | .error _ => .error (.Expect message)

/-- Indexing into a vector. -/
def index {α : Type} (items : List α) (i : Nat) : Except Failure α :=
  match items[i]? with
  | some a => .ok a
  | none => .error .IndexOutOfBounds

/-- An assertion. -/
def holds_or (condition : Prop) [Decidable condition] (failure : Failure) : Except Failure Unit :=
  if condition then .ok () else .error failure

namespace Sim

/-- The record `with_config` builds before it spawns the actors. -/
def start (seed : UInt64) (config : SimConfig) (draws : Nat → UInt64) (outside : Outside) : Sim where
  seed
  config
  rng := { draws }
  registry := .with_mailbox_config config.mailbox
  tree := .new (outside.ids 0) (.OneForOne config.max_restarts 3600000000000)
  root := outside.ids 0
  mid_times := List.replicate config.messages.toNat 0
  mid_lost := List.replicate config.messages.toNat false
  outside
  minted := 1

def traced (s : Sim) (op : TraceOp) : Sim := { s with trace := s.trace ++ [op] }

def mark_lost (s : Sim) (mid : Nat) : Sim := { s with mid_lost := s.mid_lost.set mid true }

/-- Each message is lost, counted and traced as rejected. -/
def reject (s : Sim) (ord : Nat) (reason : RejectReason) (mids : List Nat) : Sim :=
  mids.foldl (fun s mid =>
    let s := s.mark_lost mid
    { s with
      stats := { s.stats with rejected := s.stats.rejected + 1 }
      trace := s.trace ++ [.Reject (.ofNat mid) (.ofNat ord) reason] }) s

/-- A delivery that does not fit is parked; a retry parks silently. -/
def park (s : Sim) (ord : Nat) (msgs : List Message) (mids : List Nat) (was_blocked : Bool) : Sim :=
  { s with
    stats := { s.stats with blocked := s.stats.blocked + 1 }
    trace := match mids.head? with
      | some first => if was_blocked then s.trace
        else s.trace ++ [.Blocked (.ofNat first) (.ofNat mids.length) (.ofNat ord)]
      | none => s.trace
    blocked := s.blocked ++ [{ ord, msgs, mids, was_blocked := true }] }

/-- A delivery whose messages `mailbox` has taken. -/
def deliver (s : Sim) (ord : Nat) (id : ActorId) (mailbox : Mailbox) (task : Task) (mids : List Nat)
    (was_blocked : Bool) : Sim :=
  let count := task.messages.length
  { s with
    registry := s.registry.on_mailbox id (fun _ => mailbox)
    ledger := s.ledger.modify ord (fun led =>
      { led with delivered := led.delivered + count, queued := led.queued + mids.length })
    stats := { s.stats with
      delivered := s.stats.delivered + count
      unblocked := if was_blocked then s.stats.unblocked + 1 else s.stats.unblocked }
    trace := match mids.head? with
      | some first => s.trace ++ [.Deliver (.ofNat first) (.ofNat mids.length) (.ofNat ord)]
      | none => s.trace
    ready := s.ready.push { ord, task, mids } }

end Sim

/-! ## Delivery -/

/-- The pushes of a delivery into one mailbox. -/
def push_all (mailbox : Mailbox) (msgs : List Message) : Except Failure Mailbox :=
  msgs.foldlM (fun mailbox msg => match mailbox.try_send msg with
    | (mailbox,.ok _) => .ok mailbox
    | (_,.error _) => .error (.Expect "capacity precondition holds")) mailbox

/-- One delivery attempt against the live world. -/
def attempt_delivery (ord : Nat) (msgs : List Message) (mids : List Nat) (was_blocked : Bool) : SimM Unit := do
  let s ← get
  let id ← lift (index s.actors ord)
  match s.registry.get_state id with
  | none | some .Stopped | some .Failed => modify (·.reject ord .DeadTarget mids)
  | some .Creating | some .Running | some .Suspended =>
    let mailbox ← lift (expect "live ord has a mailbox" (s.registry.get_mailbox id))
    if mailbox.remaining_capacity < msgs.length then modify (·.park ord msgs mids was_blocked)
    else
      let mailbox ← lift (push_all mailbox msgs)
      let message ← lift (index msgs 0)
      let _ ← lift (index s.ledger ord)
      modify (·.deliver ord id mailbox (task_of id message (msgs.drop 1)) mids was_blocked)

/-- Route a delivery into mailbox and ready set, postponed by `delay` if
    nonzero. -/
def deliver_or_block (ord : Nat) (msgs : List Message) (mids : List Nat) (delay : Nat) : SimM Unit := do
  if 0 < delay then
    let s ← get
    let due ← lift (checked (s.tick + delay))
    modify (fun s => { s with
      next_seq := s.next_seq + 1
      delayed := push_later
        { due, seq := s.next_seq + 1, payload := { ord, msgs, mids, was_blocked := false } } s.delayed })
  else attempt_delivery ord msgs mids false

/-- The system message every incarnation starts with. -/
def start_message : Message := { sender := none, payload := .Start, priority := .Normal }

/-- An application message: its payload is its identity. -/
def app_message (priority : Priority) (mid : Nat) : Message :=
  { sender := none, payload := .Custom (to_le_bytes (.ofNat mid)), priority }

/-! ## Spawning -/

namespace Sim

/-- The registration of one incarnation. -/
def register (s : Sim) (ord inc : Nat) : Except Error Mailbox × Sim :=
  let (registry,result) := s.registry.register_named (sim_actor_id ord inc) (some (actor_name ord inc))
  (result,{ s with registry })

/-- A new child of the root supervisor. -/
def supervise (s : Sim) (ord : Nat) : Except Error ActorId × Sim :=
  let (tree,result) := s.tree.start_child_under s.root
    { name := supervisor_name ord, restart_policy := .Permanent } (s.outside.ids s.minted)
  (result,{ s with tree, minted := s.minted + 1 })

end Sim

/-- Spawn actor `ord`: registry entry, supervisor child and `Start` mail. -/
def spawn_actor (ord : Nat) : SimM Unit := do
  let registered ← modifyGet (·.register ord 0)
  let _ ← lift (expect_ok "sim actor ids are unique" registered)
  let supervised ← modifyGet (·.supervise ord)
  let _ ← lift (expect_ok "sim child names are unique" supervised)
  modify (fun s => { s with
    actors := s.actors ++ [sim_actor_id ord 0]
    ordinals := s.ordinals.insert (sim_actor_id ord 0).uuid ord
    ledger := s.ledger ++ [{ incarnation := 0, alive := true }]
    trace := s.trace ++ [.Spawn (.ofNat ord)] })
  deliver_or_block ord [start_message] [] 0

/-- The actors of the configuration are spawned. -/
def with_config : SimM Unit := do
  let s ← get
  (List.range s.config.actors.toNat).forM spawn_actor

/-! ## Workload -/

/-- A draw from the stream. -/
def draw {α : Type} (f : SimRng → Except Failure (α × SimRng)) : SimM α := do
  let s ← get
  let (a,rng) ← lift (f s.rng)
  modify (fun s => { s with rng })
  pure a

def roll (p : F64) : SimM Bool := draw (fun rng => .ok (rng.roll p))

/-- The trace and the counters of one send event. -/
def Sim.announce (s : Sim) (len target : Nat) : Sim :=
  { s with
    next_mid := s.next_mid + len
    stats := { s.stats with injected := s.stats.injected + len }
    trace := s.trace ++ [if 1 < len then .BatchSend (.ofNat s.next_mid) (.ofNat len) (.ofNat target)
      else .Send (.ofNat s.next_mid) (.ofNat target)] }

/-- A roll that a condition short-circuits. -/
def roll_if (condition : Bool) (p : F64) : SimM Bool := if condition then roll p else pure false

/-- The share of batches: one eighth. -/
def batch_prob : F64 := .finite (1 / 8)

/-- The share of urgent events: the `f64` nearest to one tenth. -/
def urgent_prob : F64 := .finite (3602879701896397 / 2 ^ 55)

/-- The size of a send event: one message, or a batch of up to three. -/
def draw_len (remaining : Nat) : SimM Nat := do
  let batch ← roll_if (1 < remaining) batch_prob
  if batch then draw (·.range 2 (min remaining 3)) else pure 1

/-- The ticks a delivery is postponed by. -/
def draw_delay (faults : FaultConfig) : SimM Nat := do
  let delayed ← roll faults.delay_prob
  if delayed then draw (·.range faults.delay_ticks_min.toNat faults.delay_ticks_max.toNat) else pure 0

/-- Inject a single send event (possibly a small batch). -/
def inject_one : SimM Unit := do
  let s ← get
  let target ← draw (·.below s.config.actors.toNat)
  let remaining ← lift (subtract s.mid_times.length s.next_mid)
  let len ← draw_len remaining
  let urgent ← roll urgent_prob
  let priority := if urgent then Priority.High else Priority.Normal
  let mids := List.range' s.next_mid len
  modify (·.announce len target)
  let rejected ← roll s.config.faults.send_reject_prob
  if rejected then modify (·.reject target .Fault mids)
  else
    let delay ← draw_delay s.config.faults
    let duplicate ← roll s.config.faults.duplicate_prob
    let msgs := mids.map (app_message priority)
    deliver_or_block target msgs mids delay
    if duplicate then
      modify (fun s => { s with stats := { s.stats with duplicates := s.stats.duplicates + 1 } })
      let later ← lift (checked (delay + DUPLICATE_GAP_TICKS))
      deliver_or_block target msgs mids later
    else pure ()

/-- The loop of `inject_workload`: it stops when the budget is used up. -/
def inject_some : Nat → SimM Unit
  | 0 => pure ()
  | attempts + 1 => do
    let s ← get
    if s.mid_times.length ≤ s.next_mid then pure ()
    else
      inject_one
      inject_some attempts

/-- Inject this tick's workload: the integer part of the rate plus a roll for
    its fraction, at least one event. -/
def inject_workload : SimM Unit := do
  let s ← get
  if s.mid_times.length ≤ s.next_mid then pure ()
  else
    let rate := s.config.injection_rate.max .zero
    let base := rate.as_u64
    let frac := rate.sub (.of_u64 base)
    let extra ← roll_if (F64.zero.lt frac) frac
    let attempts ← lift (checked (base + extra.toNat))
    inject_some (max attempts 1)

/-! ## Pending deliveries -/

/-- The earliest delayed delivery, when it is due. -/
def Sim.next_due (s : Sim) : Option DeliverLater :=
  match s.delayed with
  | [] => none
  | later :: _ => if s.tick < later.due then none else some later

/-- The loop of `deliver_due`, with the turns it may take. -/
def deliver_loop : Nat → SimM Unit
  | 0 => do
    let s ← get
    match s.next_due with
    | none => pure ()
    | some _ => throw .Diverges
  | turns + 1 => do
    let s ← get
    match s.next_due with
    | none => pure ()
    | some later =>
      modify (fun s => { s with
        delayed := s.delayed.tail
        stats := { s.stats with delayed := s.stats.delayed + 1 } })
      attempt_delivery later.payload.ord later.payload.msgs later.payload.mids later.payload.was_blocked
      deliver_loop turns

/-- Deliver everything due this tick. -/
def deliver_due : SimM Unit := do
  let s ← get
  deliver_loop s.delayed.length

/-- The loop of `retry_blocked`. -/
def retry_loop : Nat → SimM Unit
  | 0 => pure ()
  | attempts + 1 => do
    let s ← get
    let payload ← lift (expect "checked non-empty" s.blocked.head?)
    modify (fun s => { s with blocked := s.blocked.tail })
    attempt_delivery payload.ord payload.msgs payload.mids payload.was_blocked
    retry_loop attempts

/-- Retry parked deliveries. -/
def retry_blocked : SimM Unit := do
  let s ← get
  retry_loop (min s.config.blocked_retries_per_tick.toNat s.blocked.length)

/-! ## Crashes -/

/-- The ledger after a crash: every delivered copy that is neither consumed nor
    dropped nor still in the mailbox was destroyed. -/
def Sim.destroy (s : Sim) (ord : Nat) (mailbox_len : Nat) (led : ActorLedger) : Sim :=
  let destroyed := led.delivered - led.consumed - led.dropped - mailbox_len
  { s with
    ledger := s.ledger.modify ord (fun led => { led with dropped := led.dropped + destroyed })
    stats := { s.stats with dropped := s.stats.dropped + destroyed } }

/-- A member of the crashed task that never executed is lost. -/
def lose_unprocessed (mid : Nat) : SimM Unit := do
  let s ← get
  let times ← lift (index s.mid_times mid)
  if times = 0 then modify (·.mark_lost mid) else pure ()

/-- Reconcile the ledger after a crash. -/
def settle_crash (ord : Nat) (task_mids : List Nat) : SimM Unit := do
  let s ← get
  let id ← lift (index s.actors ord)
  let mailbox_len := ((s.registry.get_mailbox id).map (·.len)).getD 0
  let led ← lift (index s.ledger ord)
  modify (·.destroy ord mailbox_len led)
  task_mids.forM lose_unprocessed
  modify (·.traced (.Crash (.ofNat ord) (.ofNat (led.delivered - led.consumed - led.dropped - mailbox_len))))

namespace Sim

/-- The old incarnation is unregistered and its child marked as running. -/
def retire (s : Sim) (ord : Nat) (old : ActorId) : Sim :=
  { s with
    registry := (s.registry.unregister old).1
    ordinals := s.ordinals.erase old.uuid
    tree := { s.tree with supervisors :=
      s.tree.supervisors.modify s.root (fun sup => (sup.mark_child_running (supervisor_name ord)).1) } }

/-- The new incarnation is the current one. -/
def enrol (s : Sim) (ord inc : Nat) : Sim :=
  { s with
    actors := s.actors.set ord (sim_actor_id ord inc)
    ordinals := s.ordinals.insert (sim_actor_id ord inc).uuid ord
    trace := s.trace ++ [.Spawn (.ofNat ord)] }

/-- Permanent death. -/
def bury (s : Sim) (ord : Nat) (id : ActorId) (dropped : Nat) : Sim :=
  let cleared := match s.registry.get_mailbox id with
    | some _ => s.registry.on_mailbox id Mailbox.clear
    | none => s.registry
  { s with
    registry := (cleared.unregister id).1
    ledger := s.ledger.modify ord (fun led => { led with dropped := led.dropped + dropped, alive := false })
    stats := { s.stats with dropped := s.stats.dropped + dropped, escalated := s.stats.escalated + 1 }
    ordinals := s.ordinals.erase id.uuid
    trace := s.trace ++ [.Kill (.ofNat ord) (.ofNat dropped)] }

/-- The report of a crash to the supervisor. -/
def report (s : Sim) (ord : Nat) : Except Error Unit × Sim :=
  let (tree,result) := s.tree.handle_child_exit s.root (supervisor_name ord) (.Error SIM_CRASH_MESSAGE)
    (s.outside.readings s.exits) (fun _ => s.outside.ids s.minted)
  (result,{ s with tree, exits := s.exits + 1, minted := s.minted + 1 })

end Sim

/-- Respawn a restarted actor under a fresh identity. -/
def respawn (ord : Nat) : SimM Unit := do
  let s ← get
  let led ← lift (index s.ledger ord)
  modify (fun s => { s with ledger := s.ledger.modify ord (fun led => { led with incarnation := led.incarnation + 1 }) })
  let inc := led.incarnation + 1
  let old ← lift (index s.actors ord)
  modify (·.retire ord old)
  let registered ← modifyGet (·.register ord inc)
  let _ ← lift (expect_ok "fresh incarnation id is unique" registered)
  modify (·.enrol ord inc)
  deliver_or_block ord [start_message] [] 0

/-- Escalation: permanent death. -/
def kill (ord : Nat) : SimM Unit := do
  let s ← get
  let id ← lift (index s.actors ord)
  let _ ← lift (index s.ledger ord)
  modify (·.bury ord id (((s.registry.get_mailbox id).map (·.len)).getD 0))

/-- Report the crash to the supervisor; restart or escalate. -/
def handle_restart (ord : Nat) : SimM Unit := do
  let result ← modifyGet (·.report ord)
  match result with
  | .ok _ =>
    modify (fun s => { s with
      stats := { s.stats with restarted := s.stats.restarted + 1 }
      trace := s.trace ++ [.Restart (.ofNat ord) true] })
    respawn ord
  | .error _ =>
    modify (·.traced (.Restart (.ofNat ord) false))
    kill ord

/-! ## Processing -/

/-- A task for a dead actor: its messages are lost. -/
def Sim.discard (s : Sim) (t : SimTask) : Sim :=
  let s := t.mids.foldl Sim.mark_lost s
  { s with
    trace := match t.mids.head? with
      | some first => s.trace ++ [.Discard (.ofNat first) (.ofNat t.app_len) (.ofNat t.ord)]
      | none => s.trace
    executor := s.executor.arm_crash false }

/-- One observed record enters the ledger. -/
def settle_record (record : ExecRecord) : SimM Unit := do
  let s ← get
  let record_ord ← lift (expect "records only reference current incarnations" (s.ordinals.lookup record.actor.uuid))
  let _ ← lift (index s.ledger record_ord)
  modify (fun s => { s with
    ledger := s.ledger.modify record_ord (fun led => { led with consumed := led.consumed + 1 }) })
  match record.tag with
  | .Custom mid =>
    let times ← lift (index s.mid_times mid.toNat)
    modify (fun s => { s with
      mid_times := s.mid_times.set mid.toNat (saturating_succ 32 times)
      stats := { s.stats with processed := s.stats.processed + 1 }
      trace := s.trace ++ [.Process mid (.ofNat record_ord)] })
  | .System =>
    modify (fun s => { s with
      stats := { s.stats with system_processed := s.stats.system_processed + 1 }
      trace := s.trace ++ [.ProcessSystem (.ofNat record_ord)] })

/-- The chosen task runs through the pipeline; the number of messages counted as
    processed and the records are returned. -/
def run_task (task : Task) (crash : Bool) : SimM (Nat × List ExecRecord) := do
  let s ← get
  let p ← lift (sim_process_task s.registry task (s.executor.arm_crash crash))
  modify (fun s => { s with
    registry := p.shared.registry
    executor := (p.executor.drain_records.2).arm_crash false })
  pure (p.processed,p.executor.drain_records.1)

/-- The arm of `process_chosen` that runs the task. -/
def execute_chosen (t : SimTask) (crash_prob : F64) : SimM Unit := do
  let crash ← roll_if (0 < t.app_len) crash_prob
  let (processed,records) ← run_task t.task crash
  lift (holds_or (crash = false → processed = records.length)
    (.DebugAssert "worker counter and observation records must agree"))
  records.forM settle_record
  if crash then
    modify (fun s => { s with stats := { s.stats with crashed := s.stats.crashed + 1 } })
    settle_crash t.ord t.mids
    handle_restart t.ord
  else pure ()

/-- Process one chosen task. -/
def process_chosen (t : SimTask) : SimM Unit := do
  let s ← get
  let led ← lift (index s.ledger t.ord)
  let queued ← lift (subtract led.queued t.app_len)
  modify (fun s => { s with ledger := s.ledger.modify t.ord (fun led => { led with queued }) })
  match s.registry.get_state t.task.actor_id with
  | some .Creating | some .Running => execute_chosen t s.config.faults.crash_prob
  | some .Suspended | some .Stopped | some .Failed | none => modify (·.discard t)

/-- The next task per policy leaves the ready set. -/
def pick_next : SimM (Option SimTask) := do
  let s ← get
  let (picked,ready,rng) ← lift (s.ready.pick s.config.policy s.rng s.tick)
  modify (fun s => { s with ready, rng })
  pure picked

/-- The task-processing draws of one tick. -/
def process_ready : Nat → SimM Unit
  | 0 => pure ()
  | draws + 1 => do
    match ← pick_next with
    | some t =>
      process_chosen t
      process_ready draws
    | none => pure ()

/-! ## Audits -/

namespace Sim

/-- True when nothing can ever run or arrive again. -/
def is_quiescent (s : Sim) : Bool :=
  s.mid_times.length ≤ s.next_mid && s.delayed.isEmpty && s.blocked.isEmpty && s.ready.is_empty
    && s.ready.total_queued_msgs == 0
    && (s.ledger.zip s.actors).all (fun (led,id) =>
      !led.alive || ((s.registry.get_mailbox id).map (·.is_empty)).getD true)

def seed_text (s : Sim) : String := "seed " ++ toString s.seed ++ ": "

/-- Slot conservation of one actor. -/
def audit_actor (s : Sim) (led : ActorLedger) (ord : Nat) : Except Failure Unit :=
  if led.alive then do
    let id ← index s.actors ord
    match s.registry.get_mailbox id with
    | none => .ok ()
    | some mailbox =>
      holds_or (mailbox.len = led.delivered - led.consumed - led.dropped) (.Assert (s.seed_text
        ++ "slot/permit conservation violated for actor " ++ toString ord ++ " (delivered " ++ toString led.delivered
        ++ ", consumed " ++ toString led.consumed ++ ", dropped " ++ toString led.dropped ++ ", queued "
        ++ toString led.queued ++ ", actual len " ++ toString mailbox.len ++ ")"))
  else .ok ()

/-- One trace entry in the count of the restarts of each child. -/
def audit_restart (s : Sim) (allowed : Dict UInt64 Nat) (op : TraceOp) : Except Failure (Dict UInt64 Nat) :=
  match op with
  | .Restart target granted =>
    let entry := (allowed.lookup target).getD 0
    if granted then do
      holds_or (entry + 1 ≤ s.config.max_restarts.toNat) (.Assert (s.seed_text ++ "child " ++ toString target
        ++ " restarted " ++ toString (entry + 1) ++ " times, exceeding max_restarts "
        ++ toString s.config.max_restarts))
      .ok (allowed.insert target (entry + 1))
    else .ok (allowed.insert target entry)
  | _ => .ok allowed

/-- The restarts of all children and of each child stay within the budget. -/
def audit_restarts (s : Sim) : Except Failure Unit := do
  let root ← expect "root exists" (s.tree.supervisors.lookup s.root)
  let restarts := root.count_children.total_restarts
  let budget ← checked (s.config.max_restarts.toNat * s.config.actors.toNat)
  holds_or (restarts ≤ budget) (.Assert (s.seed_text ++ "aggregate restarts " ++ toString restarts
    ++ " exceed per-child budget " ++ toString s.config.max_restarts ++ " × " ++ toString s.config.actors
    ++ " actors"))
  let per_child_allowed ← s.trace.foldlM s.audit_restart ∅
  holds_or (per_child_allowed.keys.length ≤ s.config.actors.toNat) (.DebugAssert "per_child_allowed")

/-- Slot conservation and restart accounting, per tick. -/
def audit_counts (s : Sim) : Except Failure Unit := do
  s.ledger.zipIdx.forM (fun (led,ord) => s.audit_actor led ord)
  if 0 < s.config.max_restarts then s.audit_restarts else .ok ()

/-- Delivery accounting of one message. -/
def audit_identity (s : Sim) (times mid : Nat) : Except Failure Unit := do
  let lost ← index s.mid_lost mid
  holds_or (1 ≤ times ∨ lost = true) (.Assert (s.seed_text ++ "message " ++ toString mid
    ++ " neither processed nor accounted lost"))
  if s.config.faults.duplicate_prob = .zero then
    holds_or (times ≤ 1) (.Assert (s.seed_text ++ "message " ++ toString mid ++ " processed " ++ toString times
      ++ "× (exactly-once violated)"))
  else .ok ()

/-- Delivery accounting, audited at quiescence. -/
def audit_identities (s : Sim) : Except Failure Unit :=
  (s.mid_times.take s.next_mid).zipIdx.forM (fun (times,mid) => s.audit_identity times mid)

/-- Hash of the operation trace. -/
def trace_hash (s : Sim) : UInt64 := fnv1a (s.trace.flatMap TraceOp.encode)

end Sim

/-! ## Runs -/

/-- One scheduling round. -/
def round : SimM Unit := do
  let s ← get
  let _ ← lift (checked (s.tick + 1))
  modify (fun s => { s with tick := s.tick + 1 })
  inject_workload
  deliver_due
  retry_blocked
  process_ready s.config.processing_per_tick.toNat
  let s ← get
  lift s.audit_counts

/-- Rounds until quiescence, at most `steps`; the number executed. -/
def rounds : Nat → Nat → SimM Nat
  | 0,executed => pure executed
  | steps + 1,executed => do
    let s ← get
    if s.is_quiescent then pure executed
    else
      round
      rounds steps (executed + 1)

/-- Run up to `steps` scheduling rounds. -/
def run (steps : Nat) : SimM SimOutcome := do
  let executed ← rounds steps 0
  let s ← get
  if s.is_quiescent then lift s.audit_identities else pure ()
  pure { seed := s.seed, quiesced := s.is_quiescent, steps := executed, trace_hash := s.trace_hash
         trace_ops := s.trace.length, stats := s.stats }

/-- Scheduling rounds after which `run_to_quiescence` gives up. -/
def DEFAULT_STEP_BUDGET : Nat := 4000000

/-- Run until quiescence or the step budget. -/
def run_to_quiescence : SimM SimOutcome := run DEFAULT_STEP_BUDGET

/-- A simulation: the world is built and `run` is called with each number of
    steps. -/
def simulate (seed : UInt64) (config : SimConfig) (draws : Nat → UInt64) (outside : Outside) (runs : List Nat) :
    EStateM.Result Failure Sim Unit :=
  (do with_config; runs.forM (fun steps => do let _ ← run steps)).run (.start seed config draws outside)

end ActorKit.sim
