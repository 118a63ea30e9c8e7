import ActorKit.Queue
import ActorKit.Lib.Dict
import ActorKit.Sim.Faults

/-!
# Task selection in the simulation

The model of `sim/scheduler.rs`.
-/

namespace ActorKit.sim
open ActorKit.queue

/-- How the simulation picks the next runnable task. -/
inductive SchedulingPolicy where
  | Fifo
  | Random
  | RoundRobin
deriving DecidableEq, Repr

/-- One schedulable unit: the task, the ordinal of its actor and the identities
    of its application messages. -/
structure SimTask where
  ord : Nat
  task : Task
  mids : List Nat
deriving DecidableEq, Repr

/-- Number of application messages in this task. -/
def SimTask.app_len (t : SimTask) : Nat := t.mids.length

/-- Map key for an actor: the bits of its UUID. -/
def actor_key (id : ActorId) : BitVec 128 := id.uuid

/-- The ready sets. -/
structure ReadySet where
  priority : List SimTask := []
  ready : List SimTask := []
  /-- Actor to the tick it was last served in. -/
  last_served : Dict (BitVec 128) Nat := ∅
  /-- Actor to its number of queued messages. -/
  queued_msgs : Dict (BitVec 128) Nat := ∅

namespace ReadySet

/-- Everything queued. -/
def tasks (set : ReadySet) : List SimTask := set.priority ++ set.ready

/-- Push a task, routed by its priority. -/
def push (set : ReadySet) (t : SimTask) : ReadySet :=
  let key := actor_key t.task.actor_id
  let queued := (set.queued_msgs.lookup key).getD 0 + t.app_len
  let set := { set with queued_msgs := set.queued_msgs.insert key queued }
  if Priority.level .High ≤ t.task.priority.level then { set with priority := set.priority ++ [t] }
  else { set with ready := set.ready ++ [t] }

/-- When the actor of a task was last served. -/
def served (set : ReadySet) (t : SimTask) : Nat := (set.last_served.lookup (actor_key t.task.actor_id)).getD 0

/-- The place of the oldest task of the least recently served actor, with the
    tick that actor was served in. -/
def least_recent (set : ReadySet) : Option (Nat × Nat) :=
  set.ready.zipIdx.foldl (fun best (t,idx) =>
    let served := set.served t
    match best with
    | none => some (served,idx)
    | some (least,_) => if served < least then some (served,idx) else best) none

/-- `VecDeque::remove` on the ordinary set. -/
def remove (set : ReadySet) (idx : Nat) : Option (SimTask × ReadySet) :=
  set.ready[idx]?.map (fun t => (t,{ set with ready := set.ready.eraseIdx idx }))

/-- The task a policy takes out, the priority set first. -/
def select (set : ReadySet) (policy : SchedulingPolicy) (rng : SimRng) :
    Except Failure (Option (SimTask × ReadySet) × SimRng) :=
  match set.priority with
  | t :: rest => .ok (some (t,{ set with priority := rest }),rng)
  | [] => match policy with
    | .Fifo => .ok (set.remove 0,rng)
    | .Random =>
      if set.ready.length = 0 then .ok (none,rng)
      else do
        let (idx,rng) ← rng.below set.ready.length
        .ok (set.remove idx,rng)
    | .RoundRobin => match set.least_recent with
      | none => .ok (none,rng)
      | some (_,idx) => .ok (set.remove idx,rng)

/-- Remove and return the next task per policy. -/
def pick (set : ReadySet) (policy : SchedulingPolicy) (rng : SimRng) (tick : Nat) :
    Except Failure (Option SimTask × ReadySet × SimRng) := do
  match ← set.select policy rng with
  | (none,rng) => .ok (none,set,rng)
  | (some (picked,set),rng) =>
    let key := actor_key picked.task.actor_id
    .ok (some picked,{ set with
      last_served := set.last_served.insert key tick
      queued_msgs := set.queued_msgs.modify key (· - picked.app_len) },rng)

/-- Total queued messages. -/
def total_queued_msgs (set : ReadySet) : Nat := set.queued_msgs.values.sum

/-- True when nothing is queued anywhere. -/
def is_empty (set : ReadySet) : Bool := set.priority.isEmpty && set.ready.isEmpty

/-! ## What is queued -/

theorem push_tasks (set : ReadySet) (t : SimTask) : (set.push t).tasks.Perm (t :: set.tasks) := by
  unfold push tasks
  split
  · rw [List.append_assoc,List.singleton_append]
    exact List.perm_middle
  · rw [← List.append_assoc]
    exact List.perm_append_singleton ..

theorem remove_tasks {set left : ReadySet} {idx : Nat} {t : SimTask} (taken : set.remove idx = some (t,left)) :
    set.tasks.Perm (t :: left.tasks) := by
  unfold remove at taken
  cases found : set.ready[idx]? with
  | none => simp [found] at taken
  | some t' =>
    simp only [found,Option.map_some,Option.some.injEq,Prod.mk.injEq] at taken
    obtain ⟨rfl,rfl⟩ := taken
    have inside : set.ready.Perm (t' :: set.ready.eraseIdx idx) := by
      obtain ⟨bound,rfl⟩ := List.getElem?_eq_some_iff.mp found
      exact (List.getElem_cons_eraseIdx_perm bound).symm
    exact (inside.append_left set.priority).trans List.perm_middle

theorem select_tasks {set left : ReadySet} {policy : SchedulingPolicy} {rng rng' : SimRng} {t : SimTask}
    (selected : set.select policy rng = .ok (some (t,left),rng')) : set.tasks.Perm (t :: left.tasks) := by
  unfold select at selected
  split at selected
  · next first rest urgent =>
    cases selected
    rw [tasks,urgent]
    rfl
  · split at selected
    · exact remove_tasks (Prod.mk.inj (Except.ok.inj selected)).1
    · split at selected
      · cases selected
      · cases drawn : rng.below set.ready.length with
        | error failure => rw [drawn] at selected; cases selected
        | ok draw =>
          rw [drawn] at selected
          exact remove_tasks (Prod.mk.inj (Except.ok.inj selected)).1
    · split at selected
      · cases selected
      · exact remove_tasks (Prod.mk.inj (Except.ok.inj selected)).1

/-- A pick takes one task out; when there is none to take, nothing changes. -/
theorem pick_tasks {set left : ReadySet} {policy : SchedulingPolicy} {rng rng' : SimRng} {tick : Nat}
    {picked : Option SimTask} (picks : set.pick policy rng tick = .ok (picked,left,rng')) :
    match picked with
    | some t => set.tasks.Perm (t :: left.tasks)
    | none => left = set := by
  unfold pick at picks
  cases selected : set.select policy rng with
  | error failure => rw [selected] at picks; cases picks
  | ok result =>
    rw [selected] at picks
    match result,selected,picks with
    | (none,_),_,picks => cases picks; rfl
    | (some (t,rest),_),selected,picks =>
      cases picks
      show set.tasks.Perm (t :: rest.tasks)
      exact select_tasks selected

/-- A pick never fails. -/
theorem pick_total (set : ReadySet) (policy : SchedulingPolicy) (rng : SimRng) (tick : Nat) :
    ∃ result, set.pick policy rng tick = .ok result := by
  have selects : ∃ result, set.select policy rng = .ok result := by
    unfold select
    split
    · exact ⟨_,rfl⟩
    · cases policy with
      | Fifo => exact ⟨_,rfl⟩
      | Random =>
        by_cases empty : set.ready.length = 0
        · simp only [empty,if_true]
          exact ⟨_,rfl⟩
        · simp only [empty,if_false,SimRng.below]
          exact ⟨_,rfl⟩
      | RoundRobin => cases set.least_recent <;> exact ⟨_,rfl⟩
  obtain ⟨result,selected⟩ := selects
  unfold pick
  rw [selected]
  match result with
  | (none,_) => exact ⟨_,rfl⟩
  | (some _,_) => exact ⟨_,rfl⟩

end ReadySet
end ActorKit.sim
