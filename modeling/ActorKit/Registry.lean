import ActorKit.Mailbox
import ActorKit.Lib.Dict

/-!
# The actor registry

The model of `registry.rs`. A mailbox is shared by reference in the source, so a
caller may still use one after its actor is unregistered: the mailboxes stay in
a map of their own, keyed by the id they were created for, and what
`get_mailbox` hands out is that id. Activity timestamps are left out.
-/

namespace ActorKit.registry
open ActorKit.mailbox

/-- State of an actor. -/
inductive ActorState where
  | Creating
  | Running
  | Suspended
  | Stopped
  | Failed
deriving DecidableEq, Repr

/-- The byte an entry stores. -/
def ActorState.to_u8 : ActorState → UInt8
  | .Creating => 0
  | .Running => 1
  | .Suspended => 2
  | .Stopped => 3
  | .Failed => 4

def ActorState.from_u8 (v : UInt8) : ActorState :=
  if v = 1 then .Running else if v = 2 then .Suspended else if v = 3 then .Stopped
  else if v = 4 then .Failed else .Creating

/-- The byte loses nothing, so entries hold the state itself. -/
theorem ActorState.from_to_u8 (state : ActorState) : from_u8 state.to_u8 = state := by
  cases state <;> decide

/-- Entry in the actor registry. -/
structure ActorEntry where
  name : Option String
  state : ActorState := .Creating
  processed : Nat := 0
deriving DecidableEq, Repr

/-- Actor registry for tracking actors. -/
structure ActorRegistry where
  by_id : Dict ActorId ActorEntry := ∅
  by_name : Dict String ActorId := ∅
  mailbox_config : MailboxConfig := {}
  mailboxes : Dict ActorId Mailbox := ∅

namespace ActorRegistry

/-- Create a new registry with custom mailbox config. -/
def with_mailbox_config (config : MailboxConfig) : ActorRegistry := { mailbox_config := config }

/-- Register a new actor with a name. -/
def register_named (r : ActorRegistry) (id : ActorId) (name : Option String) :
    ActorRegistry × Except Error Mailbox :=
  let mailbox := Mailbox.new id r.mailbox_config
  let taken := match name with
    | some actor_name => (r.by_name.lookup actor_name).isSome
    | none => false
  if (r.by_id.lookup id).isSome then (r,.error (.Actor ("actor with id " ++ id.debug ++ " already exists")))
  else if taken then (r,.error (.Actor ("actor with name '" ++ name.getD "" ++ "' already exists")))
  else
    ({ r with
        by_id := r.by_id.insert id { name }
        by_name := match name with
          | some actor_name => r.by_name.insert actor_name id
          | none => r.by_name
        mailboxes := r.mailboxes.insert id mailbox },.ok mailbox)

/-- Unregister an actor. -/
def unregister (r : ActorRegistry) (id : ActorId) : ActorRegistry × Except Error Unit :=
  match r.by_id.lookup id with
  | some entry =>
    ({ r with
        by_id := r.by_id.erase id
        by_name := match entry.name with
          | some name => r.by_name.erase name
          | none => r.by_name },.ok ())
  | none => (r,.error (.Actor ("actor " ++ id.debug ++ " not found")))

/-- Get an actor's mailbox by ID. -/
def get_mailbox (r : ActorRegistry) (id : ActorId) : Option Mailbox :=
  if (r.by_id.lookup id).isSome then r.mailboxes.lookup id else none

/-- Get an actor's state by ID. -/
def get_state (r : ActorRegistry) (id : ActorId) : Option ActorState := (r.by_id.lookup id).map (·.state)

/-- Set an actor's state. -/
def set_state (r : ActorRegistry) (id : ActorId) (state : ActorState) : ActorRegistry × Except Error Unit :=
  match r.by_id.lookup id with
  | some _ => ({ r with by_id := r.by_id.modify id (fun e => { e with state }) },.ok ())
  | none => (r,.error (.Actor ("actor " ++ id.debug ++ " not found")))

/-- Look up an actor by name. -/
def lookup (r : ActorRegistry) (name : String) : Option ActorId := r.by_name.lookup name

/-- Record a message processed by an actor. -/
def record_processed (r : ActorRegistry) (id : ActorId) : ActorRegistry :=
  { r with by_id := r.by_id.modify id (fun e => { e with processed := fetch_add e.processed 1 }) }

/-- One mailbox replaced by what a call on it leaves. -/
def on_mailbox (r : ActorRegistry) (id : ActorId) (f : Mailbox → Mailbox) : ActorRegistry :=
  { r with mailboxes := r.mailboxes.modify id f }

end ActorRegistry
end ActorKit.registry
