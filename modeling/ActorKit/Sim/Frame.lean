import ActorKit.Lib.Hidden
import ActorKit.Sim.World

/-!
# What the methods of the simulation leave alone

The methods a round calls between two picks keep the configuration and the clock.
They neither read nor change the recency records of the ready set and the tasks
that stand in its ordinary queue, and only some of them read the configured sizes
or ask the supervisor. All of this is hidden here at once; what two worlds with
different supervisors or sizes have in common, and what becomes of the ready set,
are then instances.
-/

namespace ActorKit.Sim.Frame
open ActorKit.mailbox ActorKit.registry ActorKit.queue ActorKit.scheduler ActorKit.supervisor ActorKit.sim
open ActorKit.Hidden

/-- What is the same throughout. -/
structure Fixed where
  config : SimConfig
  tick : Nat

/-- What is hidden and does not change: the sizes, and the front of the ordinary
    queue with the recency records. -/
structure Still where
  actors : UInt64
  messages : UInt64
  front : List SimTask
  served : Dict (BitVec 128) Nat

/-- What is hidden: this and the supervisor, with what it takes from outside. -/
structure Veiled where
  tree : SupervisorTree
  root : ActorId
  outside : Outside
  still : Still

/-- A world with another hidden part. -/
def Veiled.over (fixed : Fixed) (t : Veiled) (s : Sim) : Sim :=
  { s with
    config := { fixed.config with actors := t.still.actors, messages := t.still.messages }
    tick := fixed.tick
    tree := t.tree
    root := t.root
    outside := t.outside
    ready := { s.ready with ready := t.still.front ++ s.ready.ready, last_served := t.still.served } }

/-- A method that what is hidden has no influence on. -/
abbrev Leaves (fixed : Fixed) (T : Veiled → Veiled → Prop) {α : Type} (p : SimM α) : Prop := Blind (Veiled.over fixed) T p

variable {fixed : Fixed} {T : Veiled → Veiled → Prop}

/-! ## Deliveries -/

theorem reject_leaves (ord : Nat) (reason : RejectReason) (mids : List Nat) :
    Leaves fixed T (modify (·.reject ord reason mids)) :=
  .modify (fun t _ => List.foldl_hom (t.over fixed) (fun _ _ => rfl))

/-- A task is pushed behind what is hidden. -/
theorem push_over (front : List SimTask) (served : Dict (BitVec 128) Nat) (set : ReadySet) (task : SimTask) :
    { set with ready := front ++ set.ready, last_served := served : ReadySet }.push task =
      { set.push task with ready := front ++ (set.push task).ready, last_served := served } := by
  unfold ReadySet.push
  split
  · rfl
  · simp only [List.append_assoc]

theorem deliver_leaves (ord : Nat) (id : ActorId) (mailbox : Mailbox) (task : Task) (mids : List Nat) (was_blocked : Bool) :
    Leaves fixed T (modify (·.deliver ord id mailbox task mids was_blocked)) := by
  refine .modify (fun t rest => ?_)
  unfold Sim.deliver Veiled.over
  simp only [push_over]

theorem attempt_delivery_leaves (ord : Nat) (msgs : List Message) (mids : List Nat) (was_blocked : Bool) :
    Leaves fixed T (attempt_delivery ord msgs mids was_blocked) := by
  refine .get_bind (fun _ _ _ _ => rfl) (fun s => .lift_bind _ (fun id => ?_))
  split
  · exact reject_leaves ord .DeadTarget mids
  · exact reject_leaves ord .DeadTarget mids
  · exact reject_leaves ord .DeadTarget mids
  all_goals
    refine .lift_bind _ (fun mailbox => .ite (.modify (fun _ _ => rfl)) ?_)
    exact .lift_bind _ (fun _ => .lift_bind _ (fun _ => .lift_bind _ (fun _ => deliver_leaves _ _ _ _ _ _)))

theorem deliver_or_block_leaves (ord : Nat) (msgs : List Message) (mids : List Nat) (delay : Nat) :
    Leaves fixed T (deliver_or_block ord msgs mids delay) := by
  refine .ite ?_ (attempt_delivery_leaves ord msgs mids false)
  exact .get_bind (fun _ _ _ _ => rfl) (fun s => .lift_bind _ (fun _ => .modify (fun _ _ => rfl)))

theorem deliver_loop_leaves (turns : Nat) : Leaves fixed T (deliver_loop turns) := by
  induction turns with
  | zero =>
    refine .get_bind (fun _ _ _ _ => rfl) (fun s => ?_)
    cases s.next_due with
    | none => exact .pure _
    | some later => exact .throw _
  | succ turns ih =>
    refine .get_bind (fun _ _ _ _ => rfl) (fun s => ?_)
    cases s.next_due with
    | none => exact .pure _
    | some later =>
      exact .bind (.modify (fun _ _ => rfl)) (fun _ => .bind (attempt_delivery_leaves _ _ _ _) (fun _ => ih))

theorem deliver_due_leaves : Leaves fixed T deliver_due :=
  .get_bind (fun _ _ _ _ => rfl) (fun _ => deliver_loop_leaves _)

theorem retry_loop_leaves (attempts : Nat) : Leaves fixed T (retry_loop attempts) := by
  induction attempts with
  | zero => exact .pure _
  | succ attempts ih =>
    refine .get_bind (fun _ _ _ _ => rfl) (fun s => .lift_bind _ (fun payload => .bind (.modify (fun _ _ => rfl)) (fun _ => ?_)))
    exact .bind (attempt_delivery_leaves _ _ _ _) (fun _ => ih)

theorem retry_blocked_leaves : Leaves fixed T retry_blocked :=
  .get_bind (fun _ _ _ _ => rfl) (fun _ => retry_loop_leaves _)

/-! ## The workload -/

theorem draw_leaves {α : Type} (f : SimRng → Except Failure (α × SimRng)) : Leaves fixed T (draw f) := by
  refine .get_bind (fun _ _ _ _ => rfl) (fun s => .lift_bind _ (fun drawn => ?_))
  exact .bind (.modify (fun _ _ => rfl)) (fun _ => .pure _)

theorem roll_if_leaves (condition : Bool) (p : F64) : Leaves fixed T (roll_if condition p) :=
  .ite (draw_leaves _) (.pure _)

theorem draw_len_leaves (remaining : Nat) : Leaves fixed T (draw_len remaining) :=
  .bind (roll_if_leaves _ _) (fun _ => .ite (draw_leaves _) (.pure _))

theorem draw_delay_leaves (faults : FaultConfig) : Leaves fixed T (draw_delay faults) :=
  .bind (draw_leaves _) (fun _ => .ite (draw_leaves _) (.pure _))

/-- `inject_one` after the target is drawn. -/
def inject_at (s : Sim) (target : Nat) : SimM Unit := do
  let remaining ← Program.lift (subtract s.mid_times.length s.next_mid)
  let len ← draw_len remaining
  let urgent ← roll urgent_prob
  let priority := if urgent then Priority.High else Priority.Normal
  let mids := List.range' s.next_mid len
  modify (·.announce len target)
  let rejected ← roll s.config.faults.send_reject_prob
  if rejected then modify (·.reject target .Fault mids)
  else
    let delay ← draw_delay s.config.faults
    let duplicate ← roll s.config.faults.duplicate_prob
    let msgs := mids.map (app_message priority)
    deliver_or_block target msgs mids delay
    if duplicate then
      modify (fun s => { s with stats := { s.stats with duplicates := s.stats.duplicates + 1 } })
      let later ← Program.lift (checked (delay + DUPLICATE_GAP_TICKS))
      deliver_or_block target msgs mids later
    else pure ()

theorem inject_one_eq :
    inject_one = get >>= fun s => draw (·.below s.config.actors.toNat) >>= fun target => inject_at s target := rfl

theorem inject_at_leaves (s : Sim) (target : Nat) : Leaves fixed T (inject_at s target) := by
  refine .lift_bind _ (fun remaining => ?_)
  refine .bind (draw_len_leaves remaining) (fun len => .bind (draw_leaves _) (fun urgent => ?_))
  refine .bind (.modify (fun _ _ => rfl)) (fun _ => .bind (draw_leaves _) (fun rejected => ?_))
  refine .ite (reject_leaves target .Fault _) (.bind (draw_delay_leaves _) (fun delay => ?_))
  refine .bind (draw_leaves _) (fun duplicate => .bind (deliver_or_block_leaves _ _ _ _) (fun _ => ?_))
  refine .ite (.bind (.modify (fun _ _ => rfl)) (fun _ => .lift_bind _ (fun later => ?_))) (.pure _)
  exact deliver_or_block_leaves _ _ _ _

section
variable (aims : ∀ t t', T t t' → t'.still.actors = t.still.actors)
include aims

/-- The number of actors is all that the workload reads of what is hidden. -/
theorem inject_one_leaves : Leaves fixed T inject_one := by
  rw [inject_one_eq]
  refine .get_bind (fun t t' rest related => ?_) (fun s => .bind (draw_leaves _) (fun _ => inject_at_leaves _ _))
  have same := aims t t' related
  unfold Veiled.over
  rw [same]
  rfl

theorem inject_some_leaves (attempts : Nat) : Leaves fixed T (inject_some attempts) := by
  induction attempts with
  | zero => exact .pure _
  | succ attempts ih =>
    exact .get_bind (fun _ _ _ _ => rfl) (fun s => .ite (.pure _) (.bind (inject_one_leaves aims) (fun _ => ih)))

theorem inject_workload_leaves : Leaves fixed T inject_workload := by
  refine .get_bind (fun _ _ _ _ => rfl) (fun s => .ite (.pure _) ?_)
  exact .bind (roll_if_leaves _ _) (fun _ => .lift_bind _ (fun _ => inject_some_leaves aims _))

end

/-! ## Processing -/

theorem lose_unprocessed_leaves (mid : Nat) : Leaves fixed T (lose_unprocessed mid) :=
  .get_bind (fun _ _ _ _ => rfl) (fun _ => .lift_bind _ (fun _ => .ite (.modify (fun _ _ => rfl)) (.pure _)))

theorem settle_crash_leaves (ord : Nat) (task_mids : List Nat) : Leaves fixed T (settle_crash ord task_mids) := by
  refine .get_bind (fun _ _ _ _ => rfl) (fun s => .lift_bind _ (fun id => .lift_bind _ (fun led => ?_)))
  refine .bind (.modify (fun _ _ => rfl)) (fun _ => .bind (.forM _ lose_unprocessed_leaves) (fun _ => ?_))
  exact .modify (fun _ _ => rfl)

theorem kill_leaves (ord : Nat) : Leaves fixed T (kill ord) := by
  refine .get_bind (fun _ _ _ _ => rfl) (fun s => .lift_bind _ (fun id => .lift_bind _ (fun _ => .modify ?_)))
  exact fun _ _ => rfl

theorem settle_record_leaves (record : ExecRecord) : Leaves fixed T (settle_record record) := by
  refine .get_bind (fun _ _ _ _ => rfl) (fun s => .lift_bind _ (fun ord => .lift_bind _ (fun _ => ?_)))
  refine .bind (.modify (fun _ _ => rfl)) (fun _ => ?_)
  cases record.tag with
  | Custom mid => exact .lift_bind _ (fun _ => .modify (fun _ _ => rfl))
  | System => exact .modify (fun _ _ => rfl)

theorem run_task_leaves (task : Task) (crash : Bool) : Leaves fixed T (run_task task crash) := by
  refine .get_bind (fun _ _ _ _ => rfl) (fun s => .lift_bind _ (fun p => ?_))
  exact .bind (.modify (fun _ _ => rfl)) (fun _ => .pure _)

theorem discard_leaves (task : SimTask) : Leaves fixed T (modify (·.discard task)) := by
  refine .modify (fun t rest => ?_)
  have marks : task.mids.foldl Sim.mark_lost (t.over fixed rest) = t.over fixed (task.mids.foldl Sim.mark_lost rest) :=
    List.foldl_hom (t.over fixed) (fun _ _ => rfl)
  unfold Sim.discard
  rw [marks]
  rfl

section
variable (report : ∀ ord, Leaves fixed T (modifyGet (·.report ord)))
  (retire : ∀ ord old, Leaves fixed T (modify (·.retire ord old)))
include report retire

omit report in
theorem respawn_leaves (ord : Nat) : Leaves fixed T (respawn ord) := by
  refine .get_bind (fun _ _ _ _ => rfl) (fun s => .lift_bind _ (fun led => .bind (.modify (fun _ _ => rfl)) (fun _ => ?_)))
  refine .lift_bind _ (fun old => .bind (retire ord old) (fun _ => .bind (.modifyGet (fun _ _ => rfl)) ?_))
  refine fun registered => .lift_bind _ (fun _ => .bind (.modify (fun _ _ => rfl)) (fun _ => ?_))
  exact deliver_or_block_leaves _ _ _ _

theorem handle_restart_leaves (ord : Nat) : Leaves fixed T (handle_restart ord) := by
  refine .bind (report ord) (fun result => ?_)
  cases result with
  | ok _ => exact .bind (.modify (fun _ _ => rfl)) (fun _ => respawn_leaves retire ord)
  | error _ => exact .bind (.modify (fun _ _ => rfl)) (fun _ => kill_leaves ord)

/-- The supervisor is asked only where a task crashes. -/
theorem process_chosen_leaves (task : SimTask) : Leaves fixed T (process_chosen task) := by
  unfold process_chosen
  refine .get_bind (fun _ _ _ _ => rfl) (fun s => .lift_bind _ (fun led => .lift_bind _ (fun queued => ?_)))
  refine .bind (.modify (fun _ _ => rfl)) (fun _ => ?_)
  have executes : Leaves fixed T (execute_chosen task s.config.faults.crash_prob) := by
    refine .bind (roll_if_leaves _ _) (fun crash => .bind (run_task_leaves _ _) (fun ran => .lift_bind _ (fun _ => ?_)))
    refine .bind (.forM _ settle_record_leaves) (fun _ => .ite ?_ (.pure _))
    refine .bind (.modify (fun _ _ => rfl)) (fun _ => .bind (settle_crash_leaves _ _) (fun _ => ?_))
    exact handle_restart_leaves report retire _
  split
  · exact executes
  · exact executes
  · exact discard_leaves task
  · exact discard_leaves task
  · exact discard_leaves task
  · exact discard_leaves task

end

/-- Whatever is hidden: the draws of a tick see no more than a pick and what is
    done with a task. -/
theorem process_ready_blind {τ : Type} {put : τ → Sim → Sim} {S : τ → τ → Prop} (picks : Blind put S pick_next)
    (chosen : ∀ task, Blind put S (process_chosen task)) (draws : Nat) : Blind put S (process_ready draws) := by
  induction draws with
  | zero => exact .pure _
  | succ draws ih =>
    refine .bind picks (fun picked => ?_)
    cases picked with
    | some task => exact .bind (chosen task) (fun _ => ih)
    | none => exact .pure _

/-! ## Sizes -/

/-- The supervisors are the same, and each world has its own sizes. -/
structure Resized (left right : Still) (t t' : Veiled) : Prop where
  tree : t'.tree = t.tree
  root : t'.root = t.root
  outside : t'.outside = t.outside
  left : t.still = left
  right : t'.still = right

section
variable {left right : Still}

/-- A method that changes the supervisor whatever the sizes. -/
theorem resized_leaves {α : Type} (f : Sim → α × Sim)
    (changes : ∀ tree root outside rest, ∃ a tree' rest', ∀ still,
      f (Veiled.over fixed ⟨tree,root,outside,still⟩ rest) = (a,Veiled.over fixed ⟨tree',root,outside,still⟩ rest')) :
    Leaves fixed (Resized left right) (modifyGet f) := by
  refine Related.modifyGet _ _ (fun t t' rest related => ?_)
  obtain ⟨tree,root,outside,still⟩ := t
  obtain ⟨tree',root',outside',still'⟩ := t'
  obtain ⟨rfl,rfl,rfl,rfl,rfl⟩ := related
  obtain ⟨a,after,rest',same⟩ := changes tree' root' outside' rest
  rw [same still,same still']
  exact ⟨rfl,⟨after,root',outside',still⟩,⟨after,root',outside',still'⟩,rest',⟨rfl,rfl,rfl,rfl,rfl⟩,rfl,rfl⟩

theorem supervise_resized (ord : Nat) : Leaves fixed (Resized left right) (modifyGet (·.supervise ord)) :=
  resized_leaves _ (fun tree root outside rest =>
    let started := tree.start_child_under root { name := supervisor_name ord, restart_policy := .Permanent }
      (outside.ids rest.minted)
    ⟨started.2,started.1,{ rest with minted := rest.minted + 1 },fun _ => rfl⟩)

theorem report_resized (ord : Nat) : Leaves fixed (Resized left right) (modifyGet (·.report ord)) :=
  resized_leaves _ (fun tree root outside rest =>
    let answered := tree.handle_child_exit root (supervisor_name ord) (.Error SIM_CRASH_MESSAGE)
      (outside.readings rest.exits) (fun _ => outside.ids rest.minted)
    ⟨answered.2,answered.1,{ rest with exits := rest.exits + 1, minted := rest.minted + 1 },fun _ => rfl⟩)

theorem retire_resized (ord : Nat) (old : ActorId) : Leaves fixed (Resized left right) (modify (·.retire ord old)) :=
  resized_leaves (fun s => (PUnit.unit,s.retire ord old)) (fun tree root _ rest =>
    ⟨PUnit.unit,{ tree with supervisors :=
      tree.supervisors.modify root (fun sup => (sup.mark_child_running (supervisor_name ord)).1) },rest.retire ord old,
      fun _ => rfl⟩)

theorem spawn_actor_resized (ord : Nat) : Leaves fixed (Resized left right) (spawn_actor ord) := by
  refine .bind (.modifyGet (fun _ _ => rfl)) (fun registered => .lift_bind _ (fun _ => ?_))
  refine .bind (supervise_resized ord) (fun supervised => .lift_bind _ (fun _ => ?_))
  exact .bind (.modify (fun _ _ => rfl)) (fun _ => deliver_or_block_leaves _ _ _ _)

theorem process_chosen_resized (task : SimTask) : Leaves fixed (Resized left right) (process_chosen task) :=
  process_chosen_leaves report_resized retire_resized task

end
end ActorKit.Sim.Frame
