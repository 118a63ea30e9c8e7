import ActorKit.Thresholds

/-!
# The double of a mailbox

The model of `loom_mailbox.rs`: what the crate checks in place of its mailbox. One
queue stands for two, a count for the semaphore, and a gate with one place for
the `Notify`. A thread is between two accesses, as in `MailboxSteps`.
-/

namespace ActorKit.loom_mailbox
open ActorKit.mailbox (fetch_add fetch_sub default_threshold)

/-- Minimal double of tokio `Notify`'s `notify_waiters` contract for the
    single-receiver mailbox. Threads are numbered. -/
structure WakeupGate where
  registered : Option Nat := none
deriving DecidableEq, Repr

/-- Loom double of the mailbox; numbers stand in for the payloads. -/
structure LoomMailbox where
  queue : List Nat := []
  permits : Nat
  size : Nat := 0
  backpressure : Bool := false
  capacity : Nat
  backpressure_count : Nat
  notify : WakeupGate := {}
deriving DecidableEq, Repr

namespace LoomMailbox

/-- Mailbox double with the default config's shape. -/
def with_capacity (capacity : Nat) : LoomMailbox where
  permits := capacity
  capacity
  backpressure_count := mailbox.backpressure_count capacity default_threshold

/-- Invariant probe for the models. -/
def is_fully_drained (mb : LoomMailbox) : Bool := mb.permits == mb.capacity && mb.size == 0 && mb.queue.isEmpty

end LoomMailbox

/-- What a thread may call. `broken_recv` is the loop of the model that loses a
    wakeup. -/
inductive LoomCall where
  | try_send (message : Nat)
  | try_recv
  | recv
  | broken_recv
deriving DecidableEq, Repr

/-- The next access of a thread. `looping` tells a `try_recv` made in the loop of
    `recv` from one made alone, `broken` the loop that checks first. -/
inductive Pc where
  | idle
  | acquire (message : Nat)
  | increment (message : Nat)
  | push (message : Nat) (size : Nat)
  | threshold (size : Nat)
  | notify
  | enable (broken : Bool)
  | pop (looping : Option Bool)
  | decrement
  | release
  | load_size
  | store_flag (size : Nat)
  | wait (broken : Bool)
  | park (broken : Bool)
deriving DecidableEq, Repr

/-- The mailbox and the threads whose `unpark` is not consumed yet. -/
structure Cells where
  mailbox : LoomMailbox
  unparked : List Nat := []
deriving DecidableEq, Repr

def Pc.begin : LoomCall → Pc
  | .try_send message => .acquire message
  | .try_recv => .pop none
  | .recv => .enable false
  | .broken_recv => .pop (some true)

/-- Wake the registered receiver, if any; it is unparked under the lock. -/
def Cells.notify_waiters (cells : Cells) : Cells :=
  match cells.mailbox.notify.registered with
  | some waiter =>
    { mailbox := { cells.mailbox with notify := { registered := none } }, unparked := waiter :: cells.unparked }
  | none => cells

/-- The next access of thread `i`; `none` while it is parked. -/
def Pc.advance (pc : Pc) (cells : Cells) (i : Nat) (call : LoomCall) : Option (Cells × Pc) :=
  let mb := cells.mailbox
  let write (mailbox : LoomMailbox) : Cells := { cells with mailbox }
  match pc with
  | .idle => some (cells,.begin call)
  | .acquire message =>
    if mb.permits = 0 then some (cells,.idle) else some (write { mb with permits := mb.permits - 1 },.increment message)
  | .increment message => some (write { mb with size := fetch_add mb.size 1 },.push message (fetch_add mb.size 1))
  | .push message size => some (write { mb with queue := mb.queue ++ [message] },.threshold size)
  | .threshold size =>
    some (if mb.backpressure_count ≤ size then write { mb with backpressure := true } else cells,.notify)
  | .notify => some (cells.notify_waiters,.idle)
  | .enable broken =>
    some (write { mb with notify := { registered := some i } },if broken then .wait true else .pop (some false))
  | .pop looping => match mb.queue with
    | _ :: rest => some (write { mb with queue := rest },.decrement)
    | [] => some (cells,match looping with
      | none => .idle
      | some false => .wait false
      | some true => .enable true)
  | .decrement => some (write { mb with size := fetch_sub mb.size 1 },.release)
  | .release => some (write { mb with permits := mb.permits + 1 },.load_size)
  | .load_size => some (cells,.store_flag mb.size)
  | .store_flag size =>
    some (if size < mb.backpressure_count / 2 then write { mb with backpressure := false } else cells,.idle)
  | .wait broken =>
    some (cells,if mb.notify.registered.isSome then .park broken else if broken then .pop (some true) else .enable false)
  | .park broken =>
    -- The token is sticky: an `unpark` before the `park` makes it return at once.
    if i ∈ cells.unparked then some ({ cells with unparked := cells.unparked.filter (· ≠ i) },.wait broken) else none

/-- A double and the threads that use it. -/
structure Threads where
  cells : Cells
  pcs : List Pc
deriving DecidableEq, Repr

/-- One access of the thread named by the label; an idle thread begins the call
    the label gives. -/
def Threads.step (s : Threads) (label : Nat × LoomCall) : Option Threads := do
  let pc ← s.pcs[label.1]?
  let (cells,pc) ← pc.advance s.cells label.1 label.2
  some { cells, pcs := s.pcs.set label.1 pc }

/-- A new double and `n` threads that have not called anything yet. -/
def Threads.init (capacity n : Nat) : Threads :=
  { cells := { mailbox := .with_capacity capacity }, pcs := List.replicate n .idle }

end ActorKit.loom_mailbox
