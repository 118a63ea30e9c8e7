import ActorKit.Registry
import ActorKit.Lib.Transition

/-!
# Threads on one registry

Any number of threads call `register_named`, `unregister`, `set_state` and
`lookup` on one registry. `by_id` is accessed on its own, `by_name` under its
lock; a step of a thread is one access. Constructing the mailbox and the entry of
a registration touches nothing shared.
-/

namespace ActorKit.registry
open ActorKit.mailbox (Mailbox)

/-- What a thread may call. -/
inductive RegistryCall where
  | register_named (id : ActorId) (name : Option String)
  | unregister (id : ActorId)
  | set_state (id : ActorId) (state : ActorState)
  | lookup (name : String)
deriving DecidableEq, Repr

/-- The next access of a thread. -/
inductive Pc where
  | idle
  | lock (id : ActorId) (name : Option String)
  | test_id (id : ActorId) (name : Option String)
  | test_name (id : ActorId) (name : Option String)
  | insert_id (id : ActorId) (name : Option String)
  | insert_name (id : ActorId) (name : Option String)
  /-- The registration returns; its guard is dropped. -/
  | unlock (result : Except Error Unit)
  | remove_id (id : ActorId)
  /-- The entry of `id` is removed; its name is next. -/
  | lock_name (id : ActorId) (name : String)
  | remove_name (id : ActorId) (name : String)
  | unlock_name
  | set_state (id : ActorId) (state : ActorState)
  | lookup (name : String)

/-- A thread, and whether the call it is in has changed one of the maps. -/
structure Thread where
  pc : Pc := .idle
  changed : Bool := false

/-- The registry, the holder of the write lock of `by_name` and the threads. -/
structure Threads where
  shared : ActorRegistry
  lock : Option Nat := none
  threads : List Thread

def Pc.begin : RegistryCall → Pc
  | .register_named id name => .lock id name
  | .unregister id => .remove_id id
  | .set_state id state => .set_state id state
  | .lookup name => .lookup name

/-- The next access of thread `t`; `none` while it has to wait for the lock. -/
def Pc.advance (pc : Pc) (r : ActorRegistry) (lock : Option Nat) (t : Nat) (call : RegistryCall) :
    Option (ActorRegistry × Option Nat × Pc) :=
  match pc with
  | .idle => some (r,lock,.begin call)
  | .lock id name => match lock with
    | none => some (r,some t,.test_id id name)
    | some _ => none
  | .test_id id name =>
    if (r.by_id.lookup id).isSome then
      some (r,lock,.unlock (.error (.Actor ("actor with id " ++ id.debug ++ " already exists"))))
    else some (r,lock,.test_name id name)
  | .test_name id name => match name with
    | some actor_name =>
      if (r.by_name.lookup actor_name).isSome then
        some (r,lock,.unlock (.error (.Actor ("actor with name '" ++ actor_name ++ "' already exists"))))
      else some (r,lock,.insert_id id name)
    | none => some (r,lock,.insert_id id name)
  | .insert_id id name =>
    let r' := { r with
      by_id := r.by_id.insert id { name }
      mailboxes := r.mailboxes.insert id (Mailbox.new id r.mailbox_config) }
    if (r.by_id.lookup id).isSome then
      some (r',lock,.unlock (.error (.Actor ("actor with id " ++ id.debug ++ " already exists"))))
    else some (r',lock,.insert_name id name)
  | .insert_name id name => match name with
    | some actor_name => some ({ r with by_name := r.by_name.insert actor_name id },lock,.unlock (.ok ()))
    | none => some (r,lock,.unlock (.ok ()))
  | .unlock _ => some (r,none,.idle)
  | .remove_id id => match r.by_id.lookup id with
    | some entry => match entry.name with
      | some name => some ({ r with by_id := r.by_id.erase id },lock,.lock_name id name)
      | none => some ({ r with by_id := r.by_id.erase id },lock,.idle)
    | none => some (r,lock,.idle)
  | .lock_name id name => match lock with
    | none => some (r,some t,.remove_name id name)
    | some _ => none
  | .remove_name _ name => some ({ r with by_name := r.by_name.erase name },lock,.unlock_name)
  | .unlock_name => some (r,none,.idle)
  | .set_state id state => some ((r.set_state id state).1,lock,.idle)
  | .lookup _ => match lock with
    | none => some (r,lock,.idle)
    | some _ => none

/-- The accesses of a call that nobody interrupts, at most `fuel` of them. -/
def Pc.alone (t : Nat) (call : RegistryCall) : Nat → Pc → ActorRegistry → Option Nat → Option (ActorRegistry × Option Nat)
  | _,.idle,r,held => some (r,held)
  | 0,_,_,_ => none
  | fuel + 1,pc,r,held => match pc.advance r held t call with
    | some (r,held,pc) => Pc.alone t call fuel pc r held
    | none => none

/-- An uninterrupted registration is `register_named`. -/
theorem register_alone (r : ActorRegistry) (t : Nat) (id : ActorId) (name : Option String) :
    Pc.alone t (.register_named id name) 6 (.begin (.register_named id name)) r none =
      some ((r.register_named id name).1,none) := by
  cases present : (r.by_id.lookup id).isSome with
  | true => simp [Pc.alone,Pc.begin,Pc.advance,ActorRegistry.register_named,present]
  | false =>
    cases name with
    | none => simp [Pc.alone,Pc.begin,Pc.advance,ActorRegistry.register_named,present]
    | some actor_name =>
      cases taken : (r.by_name.lookup actor_name).isSome with
      | true => simp [Pc.alone,Pc.begin,Pc.advance,ActorRegistry.register_named,present,taken]
      | false => simp [Pc.alone,Pc.begin,Pc.advance,ActorRegistry.register_named,present,taken]

/-- An uninterrupted unregistration is `unregister`. -/
theorem unregister_alone (r : ActorRegistry) (t : Nat) (id : ActorId) :
    Pc.alone t (.unregister id) 4 (.begin (.unregister id)) r none = some ((r.unregister id).1,none) := by
  cases found : r.by_id.lookup id with
  | none => simp [Pc.alone,Pc.begin,Pc.advance,ActorRegistry.unregister,found]
  | some entry =>
    cases named : entry.name with
    | none => simp [Pc.alone,Pc.begin,Pc.advance,ActorRegistry.unregister,found,named]
    | some name => simp [Pc.alone,Pc.begin,Pc.advance,ActorRegistry.unregister,found,named]

/-- Whether two registries differ in one of the maps. -/
def differ (r r' : ActorRegistry) : Bool := r.by_id ≠ r'.by_id || r.by_name ≠ r'.by_name

/-- One access of the thread named by the label; an idle thread begins the call
    the label gives. -/
def Threads.step (s : Threads) (label : Nat × RegistryCall) : Option Threads := do
  let thread ← s.threads[label.1]?
  let (shared,lock,pc) ← thread.pc.advance s.shared s.lock label.1 label.2
  let changed := match thread.pc with
    | .idle => false
    | _ => thread.changed || differ s.shared shared
  some { shared, lock, threads := s.threads.set label.1 { pc, changed } }

/-- An empty registry and `n` threads that have not called anything yet. -/
def Threads.init (config : mailbox.MailboxConfig) (n : Nat) : Threads :=
  { shared := .with_mailbox_config config, threads := List.replicate n {} }

end ActorKit.registry
