import ActorKit.Mailbox
import ActorKit.Lib.Transition

/-!
# Threads on one mailbox

Any number of threads call `try_send`, `send`, `try_recv`, `recv` and `clear` on
one mailbox. A thread is between two accesses to the shared cells; a step of it
makes the next access.
-/

namespace ActorKit.mailbox

/-- What a thread may call. -/
inductive MailboxCall where
  | try_send (message : Message)
  | send (message : Message)
  | try_recv
  | recv
  | clear
deriving DecidableEq, Repr

/-- The next access of a thread. `waits` tells `send` from `try_send`, `looping`
    a `try_recv` made by `recv` from one made alone. -/
inductive Pc where
  | idle
  | acquire (waits : Bool) (message : Message)
  | increment (message : Message)
  | push (message : Message) (size : Nat)
  | undo_size
  | undo_permit
  | threshold (size : Nat)
  | notify
  | register
  | pop_critical (looping : Bool)
  | pop_queue (looping : Bool)
  | decrement (looping : Bool)
  | release (looping : Bool)
  | load_size (looping : Bool)
  | store_flag (looping : Bool) (size : Nat)
  | park
  | clear_critical (total : Nat)
  | clear_queue (total : Nat)
  | clear_decrement (total : Nat)
  | clear_release (total : Nat)
  | clear_store
deriving DecidableEq, Repr

/-- The mailbox and the threads registered with its `Notify`. -/
structure Cells where
  mb : Mailbox
  waiters : List Nat := []
deriving DecidableEq, Repr

def Pc.begin : MailboxCall → Pc
  | .try_send message => .acquire false message
  | .send message => .acquire true message
  | .try_recv => .pop_critical false
  | .recv => .register
  | .clear => .clear_critical 0

/-- The next access of thread `i`; `none` while it has to wait. -/
def Pc.advance (pc : Pc) (cells : Cells) (i : Nat) (call : MailboxCall) : Option (Cells × Pc) :=
  let mb := cells.mb
  let write (mb : Mailbox) : Cells := { cells with mb }
  match pc with
  | .idle => some (cells,.begin call)
  | .acquire waits message => match mb.try_acquire with
    | some mb => some (write mb,.increment message)
    | none => if waits then none else some (cells,.idle)
  | .increment message => some (write (mb.add_size 1),.push message (fetch_add mb.size 1))
  | .push message size => match mb.push message with
    | some mb => some (write mb,.threshold size)
    | none => some (cells,.undo_size)
  | .undo_size => some (write (mb.sub_size 1),.undo_permit)
  | .undo_permit => some (write (mb.add_permits 1),.idle)
  | .threshold size => some (write (mb.raise_backpressure size),.notify)
  | .notify => some ({ cells with waiters := [] },.idle)
  | .register => some ({ cells with waiters := cells.waiters ++ [i] },.pop_critical true)
  | .pop_critical looping =>
    match (if mb.config.priority_queue then mb.pop_critical else none) with
    | some (_,mb) => some (write mb,.decrement looping)
    | none => some (cells,.pop_queue looping)
  | .pop_queue looping => match mb.pop_queue with
    | some (_,mb) => some (write mb,.decrement looping)
    | none => some (cells,if looping then .park else .idle)
  | .decrement looping => some (write (mb.sub_size 1),.release looping)
  | .release looping => some (write (mb.add_permits 1),.load_size looping)
  | .load_size looping => some (cells,.store_flag looping mb.size)
  | .store_flag looping size =>
    -- A `recv` that returns drops its `Notified`, which leaves the waiters.
    let waiters := if looping then cells.waiters.filter (· ≠ i) else cells.waiters
    some ({ mb := mb.lower_backpressure size, waiters },.idle)
  | .park => if i ∈ cells.waiters then none else some (cells,.register)
  | .clear_critical total => match mb.pop_critical with
    | some (_,mb) => some (write mb,.clear_critical (total + 1))
    | none => some (cells,.clear_queue total)
  | .clear_queue total => match mb.pop_queue with
    | some (_,mb) => some (write mb,.clear_queue (total + 1))
    | none => some (cells,if 0 < total then .clear_decrement total else .clear_store)
  | .clear_decrement total => some (write (mb.sub_size total),.clear_release total)
  | .clear_release total => some (write (mb.add_permits total),.clear_store)
  | .clear_store => some (write mb.clear_backpressure,.idle)

/-- A mailbox and the threads that use it. -/
structure Threads where
  cells : Cells
  pcs : List Pc
deriving DecidableEq, Repr

/-- One access of the thread named by the label; an idle thread begins the call
    the label gives. -/
def Threads.step (s : Threads) (label : Nat × MailboxCall) : Option Threads := do
  let pc ← s.pcs[label.1]?
  let (cells,pc) ← pc.advance s.cells label.1 label.2
  some { cells, pcs := s.pcs.set label.1 pc }

/-- A new mailbox and `n` threads that have not called anything yet. -/
def Threads.init (actor_id : ActorId) (config : MailboxConfig) (n : Nat) : Threads :=
  { cells := { mb := .new actor_id config }, pcs := List.replicate n .idle }

end ActorKit.mailbox
