import ActorKit.Basic

/-!
# Mailboxes

The model of `mailbox.rs`. The fields are the shared cells of the source: two
bounded queues, the size counter, the permits of the semaphore and the
backpressure flag. Every access to one cell is a function of its own; the calls
below compose them without interruption, `MailboxSteps` interleaves them.
-/

namespace ActorKit.mailbox

/-- Configuration for an actor mailbox. The threshold is the value of
    `backpressure_count()`, which the source computes in `f32`. -/
structure MailboxConfig where
  capacity : Nat := 10000
  priority_queue : Bool := true
  backpressure_count : Nat := 8000
deriving DecidableEq, Repr

/-- MPSC mailbox for an actor. -/
structure Mailbox where
  actor_id : ActorId
  config : MailboxConfig
  queue : List Message := []
  size : Nat := 0
  permits : Nat
  backpressure : Bool := false
  critical_queue : List Message := []
deriving DecidableEq, Repr

/-- `fetch_add` on a 64-bit counter. -/
def fetch_add (counter n : Nat) : Nat := (counter + n) % 2 ^ 64

/-- `fetch_sub` on a 64-bit counter; it wraps below zero. -/
def fetch_sub (counter n : Nat) : Nat := (counter + (2 ^ 64 - n)) % 2 ^ 64

namespace Mailbox

/-- Create a new mailbox. -/
def new (actor_id : ActorId) (config : MailboxConfig) : Mailbox := { actor_id, config, permits := config.capacity }

/-! ## Single accesses -/

/-- Take one permit of the semaphore and forget it. -/
def try_acquire (mb : Mailbox) : Option Mailbox :=
  if mb.permits = 0 then none else some { mb with permits := mb.permits - 1 }

def add_permits (mb : Mailbox) (n : Nat) : Mailbox := { mb with permits := mb.permits + n }
def add_size (mb : Mailbox) (n : Nat) : Mailbox := { mb with size := fetch_add mb.size n }
def sub_size (mb : Mailbox) (n : Nat) : Mailbox := { mb with size := fetch_sub mb.size n }

/-- Push to the queue of the message's priority; `none` when that queue is
    full. -/
def push (mb : Mailbox) (message : Message) : Option Mailbox :=
  if mb.config.priority_queue && message.priority == .Critical then
    if mb.critical_queue.length < mb.config.capacity then
      some { mb with critical_queue := mb.critical_queue ++ [message] }
    else none
  else if mb.queue.length < mb.config.capacity then some { mb with queue := mb.queue ++ [message] }
  else none

def pop_critical (mb : Mailbox) : Option (Message × Mailbox) :=
  match mb.critical_queue with
  | [] => none
  | message :: rest => some (message,{ mb with critical_queue := rest })

def pop_queue (mb : Mailbox) : Option (Message × Mailbox) :=
  match mb.queue with
  | [] => none
  | message :: rest => some (message,{ mb with queue := rest })

/-- The store after a push that saw `size`. -/
def raise_backpressure (mb : Mailbox) (size : Nat) : Mailbox :=
  if mb.config.backpressure_count ≤ size then { mb with backpressure := true } else mb

/-- The store of `check_backpressure` after it loaded `size`. -/
def lower_backpressure (mb : Mailbox) (size : Nat) : Mailbox :=
  if size < mb.config.backpressure_count / 2 then { mb with backpressure := false } else mb

def clear_backpressure (mb : Mailbox) : Mailbox := { mb with backpressure := false }

/-! ## Calls -/

def full (mb : Mailbox) : Error := .ResourceExhausted ("mailbox for actor " ++ mb.actor_id.debug ++ " is full")
def queue_full (mb : Mailbox) : Error :=
  .ResourceExhausted ("mailbox for actor " ++ mb.actor_id.debug ++ " internal queue is full")

/-- What `try_send` and `send` do once they hold a permit. -/
def deliver (mb : Mailbox) (message : Message) : Mailbox × Except (Message × Error) Unit :=
  let size := fetch_add mb.size 1
  let mb := mb.add_size 1
  match mb.push message with
  | none => ((mb.sub_size 1).add_permits 1,.error (message,mb.queue_full))
  | some mb => (mb.raise_backpressure size,.ok ())

/-- Try to send a message to the mailbox (non-blocking). -/
def try_send (mb : Mailbox) (message : Message) : Mailbox × Except (Message × Error) Unit :=
  match mb.try_acquire with
  | none => (mb,.error (message,mb.full))
  | some mb => mb.deliver message

/-- Send a message to the mailbox; `none` while it waits for a permit. -/
def send (mb : Mailbox) (message : Message) : Option (Mailbox × Except Error Unit) :=
  match mb.try_acquire with
  | none => none
  | some mb => match mb.deliver message with
    | (mb,.ok ()) => some (mb,.ok ())
    | (mb,.error (_,e)) => some (mb,.error e)

/-- What `try_recv` does once it has popped a message. -/
def settle (mb : Mailbox) : Mailbox :=
  let mb := (mb.sub_size 1).add_permits 1
  mb.lower_backpressure mb.size

/-- Receive a message from the mailbox (non-blocking). -/
def try_recv (mb : Mailbox) : Mailbox × Option Message :=
  match (if mb.config.priority_queue then mb.pop_critical else none) with
  | some (message,mb) => (mb.settle,some message)
  | none => match mb.pop_queue with
    | some (message,mb) => (mb.settle,some message)
    | none => (mb,none)

/-- Get the current queue size. -/
def len (mb : Mailbox) : Nat := mb.size
def is_empty (mb : Mailbox) : Bool := mb.len == 0
def remaining_capacity (mb : Mailbox) : Nat := mb.config.capacity - mb.len

/-- Clear all messages from the mailbox. -/
def clear (mb : Mailbox) : Mailbox :=
  let total := mb.critical_queue.length + mb.queue.length
  let mb := { mb with critical_queue := [], queue := [] }
  let mb := if 0 < total then (mb.sub_size total).add_permits total else mb
  mb.clear_backpressure

end Mailbox
end ActorKit.mailbox
