import ActorKit.Basic
import ActorKit.Lib.Transition

/-!
# Starting and stopping

The model of `start` and `stop` in `scheduler.rs`, and what a failed start leaves.
The running flag is swapped before the threads are created and is not swapped
back when a creation fails: the threads created so far go on, and the next start
believes that there is nothing to do. Creating the thread of a worker succeeds or
fails by the argument `spawn`.
-/

namespace ActorKit.scheduler

/-- What `start` and `stop` use of the scheduler. The flag is read by the threads
    of the workers; a handle stands for a thread that was not joined. -/
structure Control where
  /-- The length of `worker_stats`. -/
  worker_count : Nat
  running : Bool := false
  worker_handles : List Nat := []
  /-- The worker ids of the stealer registry. -/
  stealer_registry : List Nat := []
deriving DecidableEq, Repr

namespace Control

/-- The loop of `start`. -/
def start_workers (spawn : Nat → Except String Unit) : List Nat → Control → Control × Except Error Unit
  | [],s => (s,.ok ())
  | id :: ids,s =>
    let s := { s with stealer_registry := s.stealer_registry ++ [id] }
    match spawn id with
    | .ok _ => start_workers spawn ids { s with worker_handles := s.worker_handles ++ [id] }
    | .error e => (s,.error (.Internal ("Failed to spawn worker thread " ++ toString id ++ ": " ++ e)))

/-- Start the scheduler. -/
def start (s : Control) (spawn : Nat → Except String Unit) : Control × Except Error Unit :=
  if s.running then (s,.ok ())
  else start_workers spawn (List.range s.worker_count) { s with running := true }

/-- Stop the scheduler: every thread leaves its loop and is joined. -/
def stop (s : Control) : Control := { s with running := false,worker_handles := [] }

/-- The workers that go round their loops. -/
def processing (s : Control) : List Nat := if s.running then s.worker_handles else []

end Control
end ActorKit.scheduler

namespace ActorKit.StartStop
open ActorKit.scheduler ActorKit.Transition

/-- A call by the owner of the scheduler. -/
inductive Call where
  | start (spawn : Nat → Except String Unit)
  | stop

/-- The scheduler, and whether the last call that succeeded was a start. -/
structure Observed where
  control : Control
  started : Bool := false

def Observed.step (o : Observed) : Call → Option Observed
  | .start spawn => some
      { control := (o.control.start spawn).1
        started := if (o.control.start spawn).2.isOk then true else o.started }
  | .stop => some { control := o.control.stop }

/-- All workers run after a start that succeeded, none does otherwise, and then a
    start creates all of them. -/
structure AllOrNothing (o : Observed) : Prop where
  flag : o.control.running = o.started
  workers : o.control.processing = if o.started then List.range o.control.worker_count else []
  again : o.started = false → ∀ spawn, (∀ id < o.control.worker_count, (spawn id).isOk = true) →
    (o.control.start spawn).2 = .ok () ∧ (o.control.start spawn).1.processing = List.range o.control.worker_count

/-- A start that finds the scheduler stopped creates the threads of all its
    workers. -/
def createsAll (o : Observed) : Call → Bool
  | .start spawn => o.control.running || (List.range o.control.worker_count).all (fun id => (spawn id).isOk)
  | .stop => true

/-! ## One start -/

/-- The loop of `start` when every thread can be created. -/
theorem start_workers_all {spawn : Nat → Except String Unit} {ids : List Nat}
    (created : ∀ id ∈ ids, (spawn id).isOk = true) (s : Control) :
    Control.start_workers spawn ids s = ({ s with
      worker_handles := s.worker_handles ++ ids
      stealer_registry := s.stealer_registry ++ ids },.ok ()) := by
  induction ids generalizing s with
  | nil => simp [Control.start_workers]
  | cons id ids ih =>
    have first := created id List.mem_cons_self
    cases made : spawn id with
    | error e =>
      rw [made] at first
      cases first
    | ok _ =>
      simp only [Control.start_workers,made]
      rw [ih (fun id member => created id (List.mem_cons_of_mem _ member))]
      simp

/-- The loop of `start` up to the first thread that cannot be created. -/
theorem start_workers_fails {spawn : Nat → Except String Unit} {front back : List Nat} {i : Nat} {e : String}
    (created : ∀ id ∈ front, (spawn id).isOk = true) (fails : spawn i = .error e) (s : Control) :
    Control.start_workers spawn (front ++ i :: back) s = ({ s with
      worker_handles := s.worker_handles ++ front
      stealer_registry := s.stealer_registry ++ front ++ [i] },
      .error (.Internal ("Failed to spawn worker thread " ++ toString i ++ ": " ++ e))) := by
  induction front generalizing s with
  | nil => simp [Control.start_workers,fails]
  | cons id front ih =>
    have first := created id List.mem_cons_self
    cases made : spawn id with
    | error e =>
      rw [made] at first
      cases first
    | ok _ =>
      simp only [List.cons_append,Control.start_workers,made]
      rw [ih (fun id member => created id (List.mem_cons_of_mem _ member))]
      simp

/-- Where a start fails, the first index at which it does. -/
theorem first_failure {spawn : Nat → Except String Unit} {n : Nat}
    (some_ : (List.range n).all (fun id => (spawn id).isOk) = false) :
    ∃ i e, i < n ∧ (∀ id < i, (spawn id).isOk = true) ∧ spawn i = .error e := by
  induction n with
  | zero => cases some_
  | succ n ih =>
    rw [List.range_succ,List.all_append] at some_
    by_cases before : (List.range n).all (fun id => (spawn id).isOk) = true
    · rw [before] at some_
      cases last : spawn n with
      | ok _ => simp [last,Except.isOk,Except.toBool] at some_
      | error e => exact ⟨n,e,by omega,by simpa using before,last⟩
    · obtain ⟨i,e,small,created,fails⟩ := ih (by simpa using before)
      exact ⟨i,e,by omega,created,fails⟩

/-- A start that fails at index `i` reports it, and leaves the flag set and the
    threads below `i` running. -/
theorem start_fails {s : Control} {spawn : Nat → Except String Unit} {i : Nat} {e : String} (idle : s.running = false)
    (small : i < s.worker_count) (created : ∀ id < i, (spawn id).isOk = true) (fails : spawn i = .error e) :
    s.start spawn = ({ s with
      running := true
      worker_handles := s.worker_handles ++ List.range i
      stealer_registry := s.stealer_registry ++ List.range (i + 1) },
      .error (.Internal ("Failed to spawn worker thread " ++ toString i ++ ": " ++ e))) := by
  obtain ⟨k,total⟩ : ∃ k, s.worker_count = i + 1 + k := ⟨s.worker_count - i - 1,by omega⟩
  have split : List.range s.worker_count = List.range i ++ i :: (List.range k).map (i + 1 + ·) := by
    rw [total,List.range_add,List.range_succ,List.append_assoc]
    rfl
  rw [Control.start,idle,split]
  simp only [Bool.false_eq_true,if_false]
  rw [start_workers_fails (fun id member => created id (List.mem_range.mp member)) fails,List.range_succ,List.append_assoc]

theorem start_creates {s : Control} {spawn : Nat → Except String Unit} (idle : s.running = false)
    (created : ∀ id < s.worker_count, (spawn id).isOk = true) :
    s.start spawn = ({ s with
      running := true
      worker_handles := s.worker_handles ++ List.range s.worker_count
      stealer_registry := s.stealer_registry ++ List.range s.worker_count },.ok ()) := by
  rw [Control.start,idle]
  simp only [Bool.false_eq_true,if_false]
  rw [start_workers_all (fun id member => created id (List.mem_range.mp member))]

/-! ## Runs -/

/-- Without the flag no thread is left. -/
def Joined (n : Nat) (o : Observed) : Prop :=
  o.control.worker_count = n ∧ (o.control.running = false → o.control.worker_handles = [])

theorem joined_step {n : Nat} {o o' : Observed} {call : Call} (joined : Joined n o) (stepped : o.step call = some o') :
    Joined n o' := by
  cases call with
  | stop =>
    cases stepped
    exact ⟨joined.1,fun _ => rfl⟩
  | start spawn =>
    cases stepped
    cases idle : o.control.running with
    | true =>
      have same : o.control.start spawn = (o.control,.ok ()) := by rw [Control.start,if_pos idle]
      refine ⟨by rw [same]; exact joined.1,?_⟩
      rw [same,idle]
      intro impossible
      cases impossible
    | false =>
      cases all : (List.range o.control.worker_count).all (fun id => (spawn id).isOk) with
      | true =>
        have created : ∀ id < o.control.worker_count, (spawn id).isOk = true := by simpa using all
        rw [Joined,start_creates idle created]
        exact ⟨joined.1,fun impossible => by cases impossible⟩
      | false =>
        obtain ⟨i,e,small,created,fails⟩ := first_failure all
        rw [Joined,start_fails idle small created fails]
        exact ⟨joined.1,fun impossible => by cases impossible⟩

/-- A stopped scheduler without threads is all or nothing. -/
theorem allOrNothing_stopped {o : Observed} (idle : o.control.running = false) (none : o.control.worker_handles = [])
    (stopped : o.started = false) : AllOrNothing o := by
  refine ⟨by rw [idle,stopped],by simp [Control.processing,idle,stopped],fun _ spawn created => ?_⟩
  rw [start_creates idle created,none]
  exact ⟨rfl,rfl⟩

/-- A step keeps all or nothing exactly when it creates every thread it needs. -/
theorem allOrNothing_step_iff {n : Nat} {o o' : Observed} {call : Call} (joined : Joined n o) (whole : AllOrNothing o)
    (stepped : o.step call = some o') : AllOrNothing o' ↔ createsAll o call = true := by
  cases call with
  | stop =>
    cases stepped
    exact iff_of_true (allOrNothing_stopped rfl rfl rfl) rfl
  | start spawn =>
    cases stepped
    cases idle : o.control.running with
    | true =>
      have same : o.control.start spawn = (o.control,.ok ()) := by rw [Control.start,if_pos idle]
      have started : o.started = true := by rw [← whole.flag,idle]
      have kept : ({ control := (o.control.start spawn).1
                     started := if (o.control.start spawn).2.isOk then true else o.started } : Observed) = o := by
        rw [same,started]
        simp [← started]
      rw [kept]
      exact iff_of_true whole (by simp [createsAll,idle])
    | false =>
      have stopped : o.started = false := by rw [← whole.flag,idle]
      have none := joined.2 idle
      simp only [createsAll,idle,Bool.false_or]
      cases all : (List.range o.control.worker_count).all (fun id => (spawn id).isOk) with
      | true =>
        have created : ∀ id < o.control.worker_count, (spawn id).isOk = true := by simpa using all
        refine iff_of_true ?_ rfl
        rw [start_creates idle created,none]
        refine ⟨rfl,rfl,fun impossible => ?_⟩
        cases impossible
      | false =>
        obtain ⟨i,e,small,created,fails⟩ := first_failure all
        refine iff_of_false (fun after => ?_) (by simp)
        have flag := after.flag
        rw [start_fails idle small created fails] at flag
        simp [Except.isOk,Except.toBool,stopped] at flag

/-- A start that fails at index `i` leaves the flag set and the threads below `i`
    running, whatever `i` is. So over any sequence of calls starting is all or
    nothing exactly when no start fails to create a thread. -/
theorem start_all_or_nothing_iff (n : Nat) :
    (∀ (s : Control) spawn i e, s.running = false → i < s.worker_count → (∀ id < i, (spawn id).isOk = true) →
      spawn i = .error e →
      (s.start spawn).2 = .error (.Internal ("Failed to spawn worker thread " ++ toString i ++ ": " ++ e)) ∧
      (s.start spawn).1.running = true ∧ (s.start spawn).1.worker_handles = s.worker_handles ++ List.range i ∧
      ∀ spawn', (s.start spawn).1.start spawn' = ((s.start spawn).1,.ok ())) ∧
    ∀ calls, Along Observed.step AllOrNothing { control := { worker_count := n } } calls ↔
      AllMeet Observed.step (fun o call => createsAll o call = true) { control := { worker_count := n } } calls := by
  constructor
  · intro s spawn i e idle small created fails
    rw [start_fails idle small created fails]
    exact ⟨rfl,rfl,rfl,fun spawn' => rfl⟩
  · intro calls
    have initial : AllOrNothing { control := { worker_count := n } } := allOrNothing_stopped rfl rfl rfl
    have keeps : ∀ o call o', Joined n o → o.step call = some o' → Joined n o' :=
      fun _ _ _ joined stepped => joined_step joined stepped
    exact along_iff keeps
      (fun _ _ _ joined whole stepped => allOrNothing_step_iff joined whole stepped) ⟨rfl,fun _ => rfl⟩ initial calls

theorem start_all_or_nothing_restarted :
    Along Observed.step AllOrNothing { control := { worker_count := 2 } }
      [.start (fun _ => .ok ()),.stop,.start (fun _ => .ok ())] :=
  ((start_all_or_nothing_iff 2).2 _).mpr (allMeet_checked (by decide))

/-- Two workers; the thread of the second one cannot be created. -/
def secondFails : Call := .start (fun id => if id = 1 then .error "Resource temporarily unavailable" else .ok ())

/-- The start reports the failure, the first worker goes on, and the next start
    reports success with one worker. -/
theorem failed_start_runs :
    ¬ Along Observed.step AllOrNothing { control := { worker_count := 2 } } [secondFails] ∧
    ((run Observed.step { control := { worker_count := 2 } } [secondFails,.start (fun _ => .ok ())]).map
      (fun o => (o.control.running,o.control.processing,o.started))) = some (true,[0],true) := by
  refine ⟨fun along => ?_,by decide⟩
  have flag := (along.2 _ rfl).flag
  revert flag
  decide

end ActorKit.StartStop
