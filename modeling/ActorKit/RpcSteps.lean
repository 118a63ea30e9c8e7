import ActorKit.Rpc
import ActorKit.Lib.Transition

/-!
# Parties on one table of pending calls

Any number of callers of one `RpcClient`, the tasks that pass responses to
`handle_response` and the tasks in `cleanup_expired`. The table is accessed under
its write lock: one access is a step, except in `cleanup_expired`, which keeps the
lock while it sends to one expired call after another, in the order in which the
hash map lists them. `handle_response` sends after it has released the lock, and
`cleanup_expired` reads the clock before it takes it.
-/

namespace ActorKit.rpc
open ActorKit.Bincode

/-- One call of `call_with_timeout`. -/
structure Call where
  correlation_id : Uuid
  timeout : Duration
  envelope : Except RpcError Bytes

def Call.new {TReq : Type} (M : RpcMessage TReq) (from_ to_ : ActorId) (request : TReq) (correlation_id : Uuid)
    (timeout : Duration) : Call :=
  { correlation_id,timeout,envelope := call_envelope M from_ to_ request correlation_id timeout }

/-- Where a caller is. -/
inductive Pc where
  | start
  /-- The call is registered; `scheduler.send` is next. -/
  | sending
  /-- In `tokio::time::timeout`, which gives up at this time. -/
  | waiting (until_ : Instant)
  /-- The timeout has elapsed; the receiver is dropped next. -/
  | expired
  | removing
  | returned (ending : Ending)
deriving DecidableEq, Repr

/-- A caller with its one-shot channel. `deadline` is a ghost: the deadline that
    was entered into the table. -/
structure Caller where
  call : Call
  pc : Pc := .start
  /-- The payloads that the channel has received. -/
  received : List Bytes := []
  /-- The receiver is not dropped. -/
  rx : Bool := true
  deadline : Option Instant := none

/-- What a caller does next. -/
inductive Act where
  | register
  /-- `scheduler.send` returns. -/
  | send (result : Except String Unit)
  | poll
  | elapse
  | drop
  | remove

/-- The table and the parties. `handled` and `swept` are ghosts: the bytes passed
    to `handle_response` and the times for which the table was cleaned up. -/
structure Client where
  clock : Instant := 0
  pending : PendingCalls := ∅
  callers : List Caller
  /-- Calls removed by `handle_response`, with the payloads about to be sent. -/
  responders : List (PendingCall × Bytes) := []
  /-- The clock readings of the tasks that are about to lock the table for cleanup. -/
  readings : List Instant := []
  /-- The task that holds the lock in `cleanup_expired`: its reading and the ids left. -/
  cleaning : Option (Instant × List Uuid) := none
  handled : List Bytes := []
  swept : List Instant := []

def Client.init (calls : List Call) : Client := { callers := calls.map (fun call => { call }) }

inductive Label where
  | tick (elapsed : Duration)
  | call (i : Nat) (act : Act)
  /-- `handle_response`, up to the removal. -/
  | respond (bytes : Bytes)
  /-- The send of the `j`th responder. -/
  | deliver (j : Nat)
  | read_clock
  /-- The `j`th reading takes the lock and collects the expired ids. -/
  | collect (j : Nat)
  /-- One turn of the loop of `cleanup_expired`. -/
  | clean (k : Nat)
  | unlock

namespace Client

def put (s : Client) (i : Nat) (caller : Caller) : Client := { s with callers := s.callers.set i caller }

/-- `oneshot::Sender::send`: nothing arrives when the receiver is dropped. -/
def tx_send (s : Client) (tx : Nat) (payload : Bytes) : Client :=
  { s with callers := s.callers.modify tx (fun caller =>
      if caller.rx then { caller with received := caller.received ++ [payload] } else caller) }

/-- The sender of the channel of call `i` exists. -/
def has_sender (s : Client) (i : Nat) : Bool :=
  s.pending.values.any (fun call => call.tx = i) || s.responders.any (fun responder => responder.1.tx = i)

/-- The next step of caller `i`. -/
def advance (s : Client) (i : Nat) (caller : Caller) (act : Act) : Option Client :=
  match caller.pc,act with
  | .start,.register => match caller.call.envelope with
    | .error e => some (s.put i { caller with pc := .returned (.unserialized e) })
    | .ok _ =>
      if s.cleaning.isNone then
        some ({ s with pending := s.pending.insert caller.call.correlation_id i caller.call.timeout s.clock }.put i
          { caller with pc := .sending,deadline := some (s.clock + caller.call.timeout) })
      else none
  | .sending,.send result => match result with
    | .ok _ => some (s.put i { caller with pc := .waiting (s.clock + caller.call.timeout) })
    | .error e => some (s.put i { caller with pc := .returned (.unsent e),rx := false })
  | .waiting _,.poll => match caller.received with
    | payload :: _ => some (s.put i { caller with pc := .returned (.answered payload),rx := false })
    | [] => if s.has_sender i then none else some (s.put i { caller with pc := .returned .closed,rx := false })
  | .waiting until_,.elapse => if until_ ≤ s.clock then some (s.put i { caller with pc := .expired }) else none
  | .expired,.drop => some (s.put i { caller with pc := .removing,rx := false })
  | .removing,.remove =>
    if s.cleaning.isNone then
      some ({ s with pending := (s.pending.remove caller.call.correlation_id).1 }.put i
        { caller with pc := .returned .elapsed })
    else none
  | _,_ => none

section
variable (explain : Wire → Bytes → String)

def step (s : Client) : Label → Option Client
  | .tick elapsed => some { s with clock := s.clock + elapsed }
  | .call i act => match s.callers[i]? with
    | some caller => s.advance i caller act
    | none => none
  | .respond bytes =>
    if s.cleaning.isNone then
      match handle_response explain s.pending bytes with
      | .error _ => some { s with handled := s.handled ++ [bytes] }
      | .ok (pending,resolved) =>
        some { s with pending,handled := s.handled ++ [bytes],responders := s.responders ++ resolved.toList }
    else none
  | .deliver j => match s.responders[j]? with
    | some (call,payload) => some ({ s with responders := s.responders.eraseIdx j }.tx_send call.tx payload)
    | none => none
  | .read_clock => some { s with readings := s.readings ++ [s.clock] }
  | .collect j => match s.readings[j]?,s.cleaning with
    | some now,none => some { s with
        readings := s.readings.eraseIdx j
        cleaning := some (now,s.pending.expired now)
        swept := s.swept ++ [now] }
    | _,_ => none
  | .clean k => match s.cleaning with
    | some (now,ids) => match ids[k]? with
      | some id =>
        let (pending,call) := s.pending.remove id
        let s := { s with pending,cleaning := some (now,ids.eraseIdx k) }
        match call with
        | some call => some (s.tx_send call.tx (timeout_response id))
        | none => some s
      | none => none
    | none => none
  | .unlock => match s.cleaning with
    | some (_,[]) => some { s with cleaning := none }
    | _ => none

end
end Client
end ActorKit.rpc
