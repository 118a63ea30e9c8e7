import ActorKit.Basic
import ActorKit.Lib.Dict
import ActorKit.Lib.Window

/-!
# Supervisors

The model of `Supervisor` in `supervisor.rs`. Clock readings and minted ids are
arguments: an exit takes the reading of `check_restart_allowed` and the reading
of `record_restart`, and the id every restarted child receives. Texts that are
only logged are left out.
-/

namespace ActorKit.supervisor
open ActorKit.Window (recent)

/-- A reading of the monotonic clock. -/
abbrev Instant := Nat
abbrev Duration := Nat

/-- `u32::try_from` on a length. -/
def u32_try_from (n : Nat) : Option UInt32 := if n < 2 ^ 32 then some (UInt32.ofNat n) else none

/-- Increment that stops at the largest value of the given width. -/
def saturating_succ (width n : Nat) : Nat := min (n + 1) (2 ^ width - 1)

/-- Restart count taken when the number of timestamps does not fit `u32`. -/
def MAX_RESTART_THRESHOLD : UInt32 := 100

/-- How a supervisor should handle child failures. -/
inductive SupervisionStrategy where
  | OneForOne (max_restarts : UInt32) (within : Duration)
  | OneForAll (max_restarts : UInt32) (within : Duration)
  | RestForOne (max_restarts : UInt32) (within : Duration)
  | SimpleOneForOne
deriving DecidableEq, Repr

def SupervisionStrategy.within : SupervisionStrategy → Option Duration
  | .OneForOne _ within | .OneForAll _ within | .RestForOne _ within => some within
  | .SimpleOneForOne => none

/-- Restart policy for a supervised child. -/
inductive RestartPolicy where
  | Permanent
  | Transient
  | Temporary
deriving DecidableEq, Repr

/-- Why an actor terminated. -/
inductive ExitReason where
  | Normal
  | Shutdown
  | Signaled (signal : Signal)
  | Error (message : String)
  | Killed
deriving DecidableEq, Repr

/-- A character as Rust's `Debug` prints it in a string; beyond the controls it
    stands for itself. -/
def debug_char (c : Char) : String :=
  match c.toNat with
  | 0 => "\\0"
  | 9 => "\\t"
  | 10 => "\\n"
  | 13 => "\\r"
  | 34 => "\\\""
  | 92 => "\\\\"
  | n =>
    if n < 32 ∨ 127 ≤ n ∧ n < 160 then "\\u\x7b" ++ String.ofList (Nat.toDigits 16 n) ++ "\x7d"
    else c.toString

def debug_str (s : String) : String := "\"" ++ String.join (s.toList.map debug_char) ++ "\""

def ExitReason.is_normal : ExitReason → Bool
  | .Normal => true
  | _ => false
def ExitReason.is_abnormal (reason : ExitReason) : Bool := !reason.is_normal
def ExitReason.debug : ExitReason → String
  | .Normal => "Normal"
  | .Shutdown => "Shutdown"
  | .Signaled signal => "Signaled(" ++ signal.debug ++ ")"
  | .Error message => "Error(" ++ debug_str message ++ ")"
  | .Killed => "Killed"

/-- Specification for a supervised child actor. -/
structure ChildSpec where
  name : String
  restart_policy : RestartPolicy := .Permanent
  shutdown_timeout : Duration := 30000000000
  significant : Bool := false
deriving DecidableEq, Repr

/-- State of a supervised child. -/
inductive ChildState where
  | Running
  | Stopping
  | Stopped (reason : ExitReason)
  | Restarting (attempt : UInt32)
deriving DecidableEq, Repr

def ChildState.is_active : ChildState → Bool
  | .Running | .Restarting _ => true
  | _ => false
def ChildState.debug : ChildState → String
  | .Running => "Running"
  | .Stopping => "Stopping"
  | .Stopped reason => "Stopped \x7b reason: " ++ reason.debug ++ " \x7d"
  | .Restarting attempt => "Restarting \x7b attempt: " ++ toString attempt ++ " \x7d"

/-- A child actor being supervised. -/
structure SupervisedChild where
  id : ActorId
  spec : ChildSpec
  state : ChildState
  start_order : Nat
deriving DecidableEq, Repr

/-- Action to take when max restarts are exceeded. -/
inductive EscalationAction where
  | Escalate
  | ShutdownNode
  | GiveUp
deriving DecidableEq, Repr

/-- Error type for supervisor operations. -/
inductive SupervisorError where
  | ChildExists (name : String)
  | ChildNotFound (name : String)
  | MaxRestartsExceeded (name : String) (count max : UInt32)
  | SupervisorNotFound (id : ActorId)
  | InvalidState (name state operation : String)
deriving DecidableEq, Repr

def SupervisorError.display : SupervisorError → String
  | .ChildExists name => "child '" ++ name ++ "' already exists"
  | .ChildNotFound name => "child '" ++ name ++ "' not found"
  | .MaxRestartsExceeded name count max =>
    "child '" ++ name ++ "' exceeded max restarts (" ++ toString count ++ "/" ++ toString max ++ ")"
  | .SupervisorNotFound id => "supervisor " ++ id.debug ++ " not found"
  | .InvalidState name state operation =>
    "invalid operation '" ++ operation ++ "' on child '" ++ name ++ "' in state '" ++ state ++ "'"

/-- The conversion every `?` and `.into()` of the module applies. -/
def SupervisorError.into (e : SupervisorError) : Error := .Actor e.display

/-- A supervisor that manages child actors. -/
structure Supervisor where
  id : ActorId
  strategy : SupervisionStrategy
  children : Dict String SupervisedChild := ∅
  restart_counts : Dict String (List Instant) := ∅
  parent : Option ActorId := none
  next_start_order : Nat := 0
  total_restarts : Nat := 0
  escalation_action : EscalationAction := .Escalate

/-- Statistics about a supervisor. -/
structure SupervisorStats where
  total : Nat
  running : Nat
  stopped : Nat
  restarting : Nat
  total_restarts : Nat
deriving DecidableEq, Repr

/-- The clock readings of one `handle_child_exit`. -/
structure Readings where
  check : Instant
  record : Instant
deriving DecidableEq, Repr

namespace Supervisor

/-- Create a new supervisor with the given strategy. -/
def new (id : ActorId) (strategy : SupervisionStrategy) : Supervisor := { id, strategy }

/-- Create a new supervisor with a parent. -/
def with_parent (id : ActorId) (strategy : SupervisionStrategy) (parent : ActorId) : Supervisor :=
  { id, strategy, parent := some parent }

def set_escalation_action (s : Supervisor) (action : EscalationAction) : Supervisor :=
  { s with escalation_action := action }

/-- Start a new child actor under a fresh id. -/
def start_child (s : Supervisor) (spec : ChildSpec) (id : ActorId) : Supervisor × Except Error ActorId :=
  if (s.children.lookup spec.name).isSome then (s,.error (SupervisorError.ChildExists spec.name).into)
  else
    let child := { id, spec, state := .Running, start_order := s.next_start_order }
    ({ s with
        next_start_order := saturating_succ 32 s.next_start_order
        children := s.children.insert spec.name child },.ok id)

/-- Stop a child actor gracefully. -/
def stop_child (s : Supervisor) (name : String) : Supervisor × Except Error Unit :=
  match s.children.lookup name with
  | none => (s,.error (SupervisorError.ChildNotFound name).into)
  | some child =>
    match child.state with
    | .Running | .Restarting _ =>
      ({ s with children := s.children.modify name (fun c => { c with state := .Stopping }) },.ok ())
    | .Stopping | .Stopped _ => (s,.ok ())

/-- Terminate a child actor with a specific reason. -/
def terminate_child (s : Supervisor) (name : String) (reason : ExitReason) : Supervisor × Except Error Unit :=
  match s.children.lookup name with
  | none => (s,.error (SupervisorError.ChildNotFound name).into)
  | some _ =>
    ({ s with children := s.children.modify name (fun c => { c with state := .Stopped reason }) },.ok ())

/-- Get a list of all children. -/
def which_children (s : Supervisor) : List SupervisedChild := s.children.values

/-- Get statistics about the supervisor. -/
def count_children (s : Supervisor) : SupervisorStats where
  total := s.children.keys.length
  running := (s.children.values.filter (fun child => child.state = .Running)).length
  stopped := (s.children.values.filter (fun child => !child.state.is_active)).length
  restarting := (s.children.values.filter (fun child => child.state.is_active && child.state ≠ .Running)).length
  total_restarts := s.total_restarts

def check_restart_allowed (s : Supervisor) (name : String) (max_restarts : UInt32) (within : Duration)
    (now : Instant) : Bool :=
  if max_restarts = 0 then true
  else match s.restart_counts.lookup name with
    | some timestamps =>
      let recent_u32 := (u32_try_from (recent now within timestamps).length).getD MAX_RESTART_THRESHOLD
      recent_u32 < max_restarts
    | none => true

def record_restart (s : Supervisor) (name : String) (now : Instant) : Supervisor :=
  let timestamps := (s.restart_counts.lookup name).getD [] ++ [now]
  let kept := match s.strategy.within with
    | some within => recent now within timestamps
    | none => timestamps
  { s with restart_counts := s.restart_counts.insert name kept }

def handle_max_restarts_exceeded (s : Supervisor) (name : String) (max_restarts : UInt32) :
    Supervisor × Except Error Unit :=
  let count := match s.restart_counts.lookup name with
    | some timestamps => (u32_try_from timestamps.length).getD MAX_RESTART_THRESHOLD
    | none => 0
  let reason := ExitReason.Error ("max restarts exceeded (" ++ toString count ++ "/" ++ toString max_restarts ++ ")")
  let s := { s with children := s.children.modify name (fun c => { c with state := .Stopped reason }) }
  match s.escalation_action with
  | .Escalate | .ShutdownNode => (s,.error (SupervisorError.MaxRestartsExceeded name count max_restarts).into)
  | .GiveUp => (s,.ok ())

/-- The attempt number a restarted child shows: `len() as u32` of its log. -/
def attempt (s : Supervisor) (name : String) : UInt32 :=
  match s.restart_counts.lookup name with
  | some timestamps => UInt32.ofNat timestamps.length
  | none => 1

/-- A granted restart is charged to the child that exited. -/
def charge (s : Supervisor) (name : String) (now : Instant) : Supervisor :=
  let s := s.record_restart name now
  { s with total_restarts := saturating_succ 64 s.total_restarts }

def restart_one_for_one (s : Supervisor) (name : String) (max_restarts : UInt32) (within : Duration)
    (now : Readings) (mint : String → ActorId) : Supervisor × Except Error Unit :=
  if !s.check_restart_allowed name max_restarts within now.check then
    s.handle_max_restarts_exceeded name max_restarts
  else
    let s := s.charge name now.record
    ({ s with children := s.children.modify name (fun child =>
        { child with state := .Restarting (s.attempt name), id := mint name }) },.ok ())

def restart_one_for_all (s : Supervisor) (name : String) (max_restarts : UInt32) (within : Duration)
    (now : Readings) (mint : String → ActorId) : Supervisor × Except Error Unit :=
  if !s.check_restart_allowed name max_restarts within now.check then
    s.handle_max_restarts_exceeded name max_restarts
  else
    let s := s.charge name now.record
    ({ s with children := s.children.mapValues (fun key child =>
        { child with state := .Restarting (s.attempt child.spec.name), id := mint key }) },.ok ())

def restart_rest_for_one (s : Supervisor) (name : String) (max_restarts : UInt32) (within : Duration)
    (now : Readings) (mint : String → ActorId) : Supervisor × Except Error Unit :=
  if !s.check_restart_allowed name max_restarts within now.check then
    s.handle_max_restarts_exceeded name max_restarts
  else match s.children.lookup name with
    | none => (s,.error (SupervisorError.ChildNotFound name).into)
    | some failed =>
      let s := s.charge name now.record
      ({ s with children := s.children.mapValues (fun key child =>
          if failed.start_order ≤ child.start_order then
            { child with state := .Restarting (s.attempt child.spec.name), id := mint key }
          else child) },.ok ())

/-- Whether the restart policy of a child asks for a restart. -/
def should_restart (policy : RestartPolicy) (reason : ExitReason) : Bool :=
  match policy with
  | .Permanent => true
  | .Transient => reason.is_abnormal
  | .Temporary => false

/-- Handle a child exit event. -/
def handle_child_exit (s : Supervisor) (name : String) (reason : ExitReason) (now : Readings)
    (mint : String → ActorId) : Supervisor × Except Error Unit :=
  match s.children.lookup name with
  | none => (s,.error (SupervisorError.ChildNotFound name).into)
  | some child =>
    if !should_restart child.spec.restart_policy reason then
      ({ s with children := s.children.modify name (fun c => { c with state := .Stopped reason }) },.ok ())
    else match s.strategy with
      | .SimpleOneForOne =>
        ({ s with children := s.children.modify name (fun c => { c with state := .Stopped reason }) },.ok ())
      | .OneForOne max_restarts within => s.restart_one_for_one name max_restarts within now mint
      | .OneForAll max_restarts within => s.restart_one_for_all name max_restarts within now mint
      | .RestForOne max_restarts within => s.restart_rest_for_one name max_restarts within now mint

/-- Remove a child from supervision. -/
def remove_child (s : Supervisor) (name : String) : Supervisor × Except Error SupervisedChild :=
  match s.children.lookup name with
  | none => (s,.error (SupervisorError.ChildNotFound name).into)
  | some child => ({ s with children := s.children.erase name },.ok child)

/-- Mark a restarting child as running. -/
def mark_child_running (s : Supervisor) (name : String) : Supervisor × Except Error Unit :=
  match s.children.lookup name with
  | none => (s,.error (SupervisorError.ChildNotFound name).into)
  | some child =>
    match child.state with
    | .Restarting _ | .Running =>
      ({ s with children := s.children.modify name (fun c => { c with state := .Running }) },.ok ())
    | .Stopping | .Stopped _ =>
      (s,.error (SupervisorError.InvalidState name child.state.debug "mark_running").into)

end Supervisor

/-! ## Runs -/

/-- The public operations of a supervisor. `get_child_mut` hands out a mutable
    child, so its caller may write any record. -/
inductive Op where
  | set_escalation_action (action : EscalationAction)
  | start_child (spec : ChildSpec) (id : ActorId)
  | stop_child (name : String)
  | terminate_child (name : String) (reason : ExitReason)
  | handle_child_exit (name : String) (reason : ExitReason) (now : Readings) (mint : String → ActorId)
  | remove_child (name : String)
  | mark_child_running (name : String)
  | get_child_mut (name : String) (write : SupervisedChild → SupervisedChild)

/-- The supervisor after one operation. -/
def Supervisor.apply (s : Supervisor) : Op → Supervisor
  | .set_escalation_action action => s.set_escalation_action action
  | .start_child spec id => (s.start_child spec id).1
  | .stop_child name => (s.stop_child name).1
  | .terminate_child name reason => (s.terminate_child name reason).1
  | .handle_child_exit name reason now mint => (s.handle_child_exit name reason now mint).1
  | .remove_child name => (s.remove_child name).1
  | .mark_child_running name => (s.mark_child_running name).1
  | .get_child_mut name write => { s with children := s.children.modify name write }

/-- The supervisor after a run. -/
def Supervisor.run (s : Supervisor) (ops : List Op) : Supervisor := ops.foldl Supervisor.apply s

/-- The clock readings an operation takes, in order. -/
def Op.readings : Op → List Instant
  | .handle_child_exit _ _ now _ => [now.check,now.record]
  | _ => []

/-- Every reading of a run is at least the reading before it. -/
def NonDecreasing (ops : List Op) : Prop := (ops.flatMap Op.readings).Pairwise (· ≤ ·)

end ActorKit.supervisor
