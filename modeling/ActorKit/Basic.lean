import Mathlib.Algebra.GroupWithZero.Nat
import Mathlib.Order.Basic

/-!
# Identities, messages and errors

The types every part of the runtime shares (`lib.rs`, `error.rs`).
-/

namespace ActorKit

/-- Unique identifier for an actor: the 128 bits of its UUID. Random ids
    (`ActorId::new`) are arguments of the functions that mint them. -/
structure ActorId where
  uuid : BitVec 128
deriving DecidableEq, Repr

/-- What `{:?}` prints for an id: the hyphenated hexadecimal UUID. -/
def ActorId.debug (id : ActorId) : String :=
  let group (start size : Nat) := String.ofList ((List.range size).map (fun i =>
    Nat.digitChar (id.uuid.toNat / 16 ^ (31 - (start + i)) % 16)))
  "ActorId(" ++ group 0 8 ++ "-" ++ group 8 4 ++ "-" ++ group 12 4 ++ "-" ++ group 16 4 ++ "-" ++ group 20 12 ++ ")"

example : ActorId.debug ⟨0x67e5504410b1426f9247bb680e5fe0c8⟩ = "ActorId(67e55044-10b1-426f-9247-bb680e5fe0c8)" := by
  decide +kernel

/-- Priority level for actor messages, in ascending order. -/
inductive Priority where
  | Low
  | Normal
  | High
  | Critical
deriving DecidableEq, Repr

/-- The discriminant the derived order compares. -/
def Priority.level : Priority → Nat
  | .Low => 0
  | .Normal => 1
  | .High => 2
  | .Critical => 3

/-- The larger of two priorities. -/
def Priority.max (p q : Priority) : Priority := if p.level < q.level then q else p

/-- System signals. -/
inductive Signal where
  | Pause
  | Resume
  | Restart
deriving DecidableEq, Repr

def Signal.debug : Signal → String
  | .Pause => "Pause"
  | .Resume => "Resume"
  | .Restart => "Restart"

/-- Payload of a message. -/
inductive MessagePayload where
  | Start
  | Stop
  | Custom (bytes : List UInt8)
  | Signal (signal : Signal)
  | Empty
deriving DecidableEq, Repr

/-- A message sent to an actor. `uid` is a ghost: no function reads it, and a
    run of the scheduler gives every accepted message its own. -/
structure Message where
  sender : Option ActorId
  payload : MessagePayload
  priority : Priority
  uid : Nat := 0
deriving DecidableEq, Repr

/-- Errors of the runtime, with their texts. -/
inductive Error where
  | Actor (message : String)
  | ResourceExhausted (message : String)
  | Serialization (message : String)
  | Internal (message : String)
deriving DecidableEq, Repr

end ActorKit
