import ActorKit.Lib.Ending
import ActorKit.Inventory
import ActorKit.Killed
import ActorKit.Overtaking

/-!
# A stopped scheduler comes to rest

After `stop` a worker finishes the task it holds, or the round of looking for one
that it is in, and exits. The messages it still meets are finitely many as long as
no actor falls asleep: everything a mailbox gives out is then executed and not put
back. What is left are the tasks nobody took and the sends that wait for a permit
of a full mailbox.
-/

namespace ActorKit.Shutdown
open ActorKit.mailbox ActorKit.registry ActorKit.queue ActorKit.scheduler ActorKit.MailboxAccounting ActorKit.MailboxCalls
  ActorKit.Moves ActorKit.Inventory ActorKit.Transition ActorKit.Counting ActorKit.Ending ActorKit.Overtaking

/-- The step belongs to a worker, or goes on with a call. -/
def Underway (s : System) : Label → Prop
  | .worker .. => True
  | .client i _ _ => s.clients[i]? ≠ some .idle
  | _ => False

/-- A message that does not suspend its actor. -/
def Wakeful (m : Message) : Prop := m.payload ≠ .Signal .Pause

/-- No actor is suspended, nor is any stored message a pause. -/
structure Alert (g : Shared) : Prop where
  states : ∀ id, g.registry.get_state id ≠ some .Suspended
  stored : ∀ id mb, g.registry.mailboxes.lookup id = some mb → ∀ m ∈ contents mb, Wakeful m

/-- A task in progress suspends nobody. -/
structure Brisk (job : Job) : Prop where
  hand : ∀ m ∈ hand job, Wakeful m
  sets : job.stage ≠ .set_state .Suspended

/-- A call in progress suspends nobody. -/
structure Plain (c : Client) : Prop where
  pushed : ∀ a, ∀ m ∈ pushedBy a c, Wakeful m
  unsent : ∀ a, ∀ m ∈ unsent a c, Wakeful m
  sets : ∀ id state, meddles c = some (id,state) → state ≠ .Suspended

/-- Nobody sleeps and nothing under way puts anybody to sleep. -/
structure Awake (s : System) : Prop where
  shared : Alert s.shared
  queued : ∀ task ∈ tasks s.shared, ∀ m ∈ task.messages, Wakeful m
  held : ∀ w ∈ s.workers, ∀ job, holding w = some job → Brisk job
  calls : ∀ c ∈ s.clients, Plain c

/-- What is left of a scheduler at rest. -/
structure ShutDown (s : System) : Prop where
  exited : ∀ w ∈ s.workers, w.pc = .exited
  waits : ∀ c ∈ s.clients, c = .idle ∨ ∃ kind target pushed m remaining mb, c = .push kind target pushed m remaining ∧
    s.shared.registry.mailboxes.lookup target = some mb ∧ mb.permits = 0 ∧
    (contents mb).length = s.config.mailbox_config.capacity

/-- A worker that may still find a task before it looks at the running flag. -/
def hunts (w : Worker) : Bool :=
  match w.pc with
  | .head | .process _ | .exited => false
  | _ => true

/-! ## Nobody falls asleep -/

theorem change_wakeful {m : Message} (wakeful : Wakeful m) {state : ActorState}
    (changes : state_change m.payload = some state ∨ success_change m.payload = some state) : state ≠ .Suspended := by
  rintro rfl
  obtain ⟨sender,payload,priority,uid⟩ := m
  cases payload with
  | Signal signal =>
    cases signal with
    | Pause => exact wakeful rfl
    | Resume | Restart => simp [state_change,success_change] at changes
  | _ => simp [state_change,success_change] at changes

/-- The states after a call of a job. -/
theorem states_set {g : Shared} (alert : ∀ id, g.registry.get_state id ≠ some .Suspended) (id : ActorId) {state : ActorState}
    (wakes : state ≠ .Suspended) (k : ActorId) : (g.set_state id state).registry.get_state k ≠ some .Suspended := by
  rw [Shared.set_state,get_state_set]
  split
  · intro asleep
    obtain ⟨_,-,same⟩ := Option.map_eq_some_iff.mp asleep
    exact wakes same
  · exact alert k

theorem states_counted {g : Shared} (alert : ∀ id, g.registry.get_state id ≠ some .Suspended) (id k : ActorId) :
    (g.registry.record_processed id).get_state k ≠ some .Suspended := by
  simp only [ActorRegistry.record_processed,ActorRegistry.get_state,Dict.lookup_modify]
  split
  · rw [Option.map_map]
    exact alert k
  · exact alert k

section
variable {config : SchedulerConfig} {g g' : Shared} {execution : Execution}

theorem job_states {job : Job} {next : Option Job} (states : ∀ id, g.registry.get_state id ≠ some .Suspended)
    (brisk : Brisk job) (steps : job.step config g execution = (g',next)) (k : ActorId) :
    g'.registry.get_state k ≠ some .Suspended := by
  obtain ⟨id,batch,rest,depth,stage⟩ := job
  cases job_move steps with
  | @assigns state => exact states_set states id (fun asleep => brisk.sets (by rw [asleep])) k
  | fail_assigns | panic_assigns => exact states_set states id (by simp) k
  | @control_assigns m state changes =>
    exact states_set states id (change_wakeful (brisk.hand m List.mem_cons_self) (.inl changes)) k
  | records => exact states_counted states id k
  | _ => exact states k

/-- Where a job goes on, it is not about to suspend its actor. -/
theorem job_sets {job next : Job} (brisk : Brisk job) (steps : job.step config g execution = (g',some next)) :
    next.stage ≠ .set_state .Suspended := by
  obtain ⟨id,batch,rest,depth,stage⟩ := job
  have move := job_move steps
  generalize after : some next = result at move
  have finished : ∀ {job : Job}, some next = job.finish → next.stage ≠ .set_state .Suspended := by
    intro job done
    unfold Job.finish at done
    split at done
    · cases done
      simp
    · split at done <;> cases done
      simp
  cases move with
  | absent | unboxed | releases | fail_unboxed | fail_clears | unwoken | drain_unboxed | drain_ends | pop_ends
    | requeue_unboxed | requeue_pushes => exact finished after
  | @handled m change changes =>
    cases after
    have wakeful := brisk.hand m List.mem_cons_self
    cases change with
    | none => simp [Stage.after]
    | some state =>
      have wakes : state ≠ .Suspended := by
        rcases changes with same | ⟨-,-,same⟩
        · exact change_wakeful wakeful (.inl same.symm)
        · exact change_wakeful wakeful (.inr same.symm)
      simpa [Stage.after] using wakes
  | _ => cases after <;> simp

theorem job_brisk {mailboxes : MailboxConfig} (fits : mailboxes.capacity < 2 ^ 64) {job : Job} {next : Option Job}
    (kept : Kept mailboxes g.registry) (alert : Alert g) (brisk : Brisk job)
    (steps : job.step config g execution = (g',next)) : Alert g' ∧ ∀ job', next = some job' → Brisk job' := by
  have effect := step_effect steps
  refine ⟨⟨job_states alert.states brisk steps,?_⟩,?_⟩
  · intro k mb found m listed
    by_cases own : k = job.actor_id
    · subst own
      rcases effect_contents fits kept effect found listed with held | ⟨mb',here,old⟩
      · exact brisk.hand m held
      · exact alert.stored _ mb' here m old
    · exact alert.stored k mb (by rw [← (effect_frame effect).mailboxes k own]; exact found) m listed
  · rintro job' rfl
    refine ⟨fun m member => ?_,job_sets brisk steps⟩
    rcases (job_hand steps).2 m member with held | ⟨mb,found,received⟩
    · exact brisk.hand m held
    · exact alert.stored _ mb found m (received_stored fits (kept.sound _ mb found) received)

end

theorem alert_on_mailbox {g : Shared} (alert : Alert g) (id : ActorId) (f : Mailbox → Mailbox)
    (wakes : ∀ mb, g.registry.mailboxes.lookup id = some mb → ∀ m ∈ contents (f mb), Wakeful m) : Alert (g.on_mailbox id f) := by
  refine ⟨alert.states,fun k mb found => ?_⟩
  simp only [Shared.on_mailbox,ActorRegistry.on_mailbox,Dict.lookup_modify] at found
  split at found
  · next same =>
    subst same
    obtain ⟨mb',here,rfl⟩ := Option.map_eq_some_iff.mp found
    exact wakes mb' here
  · exact alert.stored k mb found

theorem alert_set {g : Shared} (alert : Alert g) (id : ActorId) {state : ActorState} (wakes : state ≠ .Suspended) :
    Alert (g.set_state id state) := by
  refine ⟨states_set alert.states id wakes,fun k mb found => alert.stored k mb ?_⟩
  rw [← found,Shared.set_state,(set_state_mailboxes g.registry id state).1]

theorem alert_unregister {g : Shared} (alert : Alert g) (id : ActorId) :
    Alert { g with registry := (g.registry.unregister id).1 } := by
  refine ⟨fun k => ?_,fun k mb found => alert.stored k mb ?_⟩
  · have before := alert.states k
    by_cases same : k = id
    · subst same
      have gone : (g.registry.unregister k).1.by_id.lookup k = none := by
        unfold ActorRegistry.unregister
        split
        · simp
        · next absent => exact absent
      simp [ActorRegistry.get_state,gone]
    · simpa only [ActorRegistry.get_state,unregister_other g.registry same] using before
  · rw [← found,unregister_mailboxes]

theorem plain_idle : Plain .idle := ⟨by simp [pushedBy],by simp [unsent],by simp [meddles]⟩

/-- A call that goes on suspends nobody, and enqueues no task that would. -/
theorem client_alert {mailboxes : MailboxConfig} (fits : mailboxes.capacity < 2 ^ 64) {config : SchedulerConfig}
    {g g' : Shared} {i : Nat} {call : Call} {c c' : Client} (kept : Kept mailboxes g.registry) (begun : c ≠ .idle)
    (alert : Alert g) (plain : Plain c) (moves : ClientMove config g i call c g' c') :
    Alert g' ∧ Plain c' ∧ ∀ task ∈ tasks g', task ∈ tasks g ∨ ∀ m ∈ task.messages, Wakeful m := by
  cases moves with
  | enter => exact absurd rfl begun
  | look before after same hands dies =>
    refine ⟨alert,⟨fun a m listed => ?_,fun a m listed => ?_,fun id state sets => ?_⟩,fun _ member => .inl member⟩
    · rw [after] at listed
      cases listed
    · rcases same a with kept | gone
      · exact plain.unsent a m (kept ▸ listed)
      · rw [gone] at listed
        cases listed
    · rcases hands with kept | gone
      · exact plain.sets id state (kept ▸ sets)
      · rw [gone] at sets
        cases sets
  | @accept kind target pushed remaining m mb mb' found pushes =>
    have wakeful : Wakeful m := plain.unsent target m (by simp [unsent])
    obtain ⟨-,stored,-⟩ := push_one_sound fits (kept.sound _ _ found) pushes
    have alert' : Alert (g.on_mailbox target (fun _ => mb')) := by
      refine alert_on_mailbox alert target _ (fun _ _ m' listed => ?_)
      rcases List.mem_cons.mp ((stored rfl).mem_iff.mp listed) with rfl | old
      · exact wakeful
      · exact alert.stored target mb found m' old
    refine ⟨⟨alert'.states,alert'.stored⟩,⟨fun a m' listed => ?_,fun a m' listed => ?_,fun id state sets => ?_⟩,
      fun _ member => .inl member⟩
    · rw [(pushing_next kind target pushed m remaining a).1] at listed
      split at listed
      · next same =>
        subst same
        rcases List.mem_append.mp listed with old | new
        · exact plain.pushed target m' (by simpa [pushedBy] using old)
        · rw [List.mem_singleton.mp new]
          exact wakeful
      · cases listed
    · rw [(pushing_next kind target pushed m remaining a).2.1] at listed
      split at listed
      · next same =>
        subst same
        exact plain.unsent target m' (by simp [unsent,listed])
      · cases listed
    · rw [(pushing_next kind target pushed m remaining id).2.2] at sets
      cases sets
  | @refuse kind target pushed remaining m mb mb' found pushes =>
    obtain ⟨-,-,refused⟩ := push_one_sound fits (kept.sound _ _ found) pushes
    refine ⟨alert_on_mailbox alert target _ (fun _ _ m' listed => ?_),plain_idle,fun _ member => .inl member⟩
    rw [(refused rfl).1] at listed
    exact alert.stored target mb found m' listed
  | @enqueue target first additional =>
    refine ⟨⟨alert.states,alert.stored⟩,plain_idle,fun task member => ?_⟩
    rcases tasks_enqueue (g := g) member with old | rfl
    · exact .inl old
    · exact .inr (fun m listed => plain.pushed target m (by simpa [pushedBy,task_of,Task.messages] using listed))
  | @set_state id state => exact ⟨alert_set alert id (plain.sets id state rfl),plain_idle,fun task member => .inl
      ((tasks_congr rfl rfl : tasks (g.set_state id state) = tasks g) ▸ member)⟩
  | @kill id registered =>
    refine ⟨alert_set alert id (by simp),⟨by simp [pushedBy],by simp [unsent],?_⟩,fun task member => .inl
      ((tasks_congr rfl rfl : tasks (g.set_state id .Stopped) = tasks g) ▸ member)⟩
    simp only [meddles,Option.some.injEq,Prod.mk.injEq]
    rintro _ _ ⟨-,rfl⟩
    simp
  | @clear id =>
    refine ⟨alert_on_mailbox alert id _ (fun mb found m listed => ?_),⟨by simp [pushedBy],by simp [unsent],?_⟩,
      fun _ member => .inl member⟩
    · rw [(clear_sound fits (kept.sound id mb found)).2] at listed
      cases listed
    · simp only [meddles,Option.some.injEq,Prod.mk.injEq]
      rintro _ _ ⟨-,rfl⟩
      simp
  | @unregister id => exact ⟨alert_unregister alert id,plain_idle,fun _ member => .inl member⟩

theorem awake_step {s s' : System} {label : Label} (fits : s.config.mailbox_config.capacity < 2 ^ 64) (sane : Sane s)
    (awake : Awake s) (underway : Underway s label) (stepped : s.step label = some s') : Awake s' := by
  obtain ⟨move,-⟩ := step_move sane.toNoLocal stepped
  cases move with
  | @worker i execution moved w w' g' found moves =>
    have member := List.mem_of_getElem? found
    -- The other workers hold what they held.
    have others : (∀ job, holding w' = some job → Brisk job) → ∀ v ∈ s.workers.set i w', ∀ job, holding v = some job →
        Brisk job := by
      intro new v listed job holds
      rcases List.mem_or_eq_of_mem_set listed with old | rfl
      · exact awake.held v old job holds
      · exact new job holds
    cases moves with
    | look free still =>
      refine ⟨awake.shared,awake.queued,others (fun job holds => ?_),awake.calls⟩
      rw [still] at holds
      cases holds
    | @take _ lane task rest free head holds pops =>
      obtain ⟨listed,fewer⟩ := tasks_take head
      refine ⟨⟨awake.shared.states,awake.shared.stored⟩,fun other queued => awake.queued other (fewer other queued),
        others (fun job held => ?_),awake.calls⟩
      rw [holds] at held
      cases held
      exact ⟨fun m inHand => awake.queued task listed m (by simpa [hand,Job.start,Task.messages] using inHand),
        by simp [Job.start]⟩
    | @work _ job _ holds steps =>
      obtain ⟨alert,brisk⟩ := job_brisk fits sane.registry awake.shared (awake.held w member job holds) steps
      have frame := effect_frame (step_effect steps)
      exact ⟨alert,by rw [tasks_congr frame.injectors frame.deques]; exact awake.queued,others brisk,awake.calls⟩
  | @client i call admitted c c' g' found moves =>
    have begun : c ≠ .idle := fun idle => underway (by rw [found,idle])
    obtain ⟨alert,plain,queued⟩ :=
      client_alert fits sane.registry begun awake.shared (awake.calls c (List.mem_of_getElem? found)) moves
    refine ⟨alert,fun task listed => ?_,awake.held,fun c'' listed => ?_⟩
    · rcases queued task listed with old | new
      · exact awake.queued task old
      · exact new
    · rcases List.mem_or_eq_of_mem_set listed with old | rfl
      · exact awake.calls c'' old
      · exact plain
  | drop_send | spawn | receive | start_worker | set_running => exact underway.elim

/-! ## What is left to do -/

/-- The calls a task in progress still makes at this stage, those of a return to
    its drain included. A message put back is worth its 22 calls again. -/
def stageRank : Stage → Nat
  | .get_state _ => 20
  | .execute _ | .control _ => 19
  | .set_state _ | .fail | .panic | .control_mailbox => 18
  | .record | .fail_mailbox | .panic_mailbox | .control_release => 17
  | .get_mailbox | .fail_clear | .panic_clear | .control_check => 16
  | .release => 15
  | .drain => 14
  | .drain_empty => 13
  | .drain_pop => 12
  | .requeue _ => 26
  | .requeue_push _ => 25
  | .check => 2

/-- The calls of a worker that processes a task, its exit included. -/
def jobRank : Option Job → Nat
  | some job => 20 * job.rest.length + 13 * job.depth + stageRank job.stage
  | none => 1

/-- The calls of a worker of `n` that has not found a task. -/
def workerRank (n : Nat) (w : Worker) : Nat :=
  match w.pc with
  | .exited | .push_local .. => 0
  | .head => 1
  | .steal_batch _ victims _ => 2 + victims.length
  | .steal victims => 3 + w.stealers.length + victims.length
  | .pop .global => 4 + 2 * w.stealers.length
  | .pop_local => 5 + 2 * w.stealers.length
  | .pop .low => 6 + 2 * w.stealers.length
  | .pop .normal => 7 + 2 * w.stealers.length
  | .pop .high => 8 + 2 * w.stealers.length
  | .pop .critical => 9 + 2 * w.stealers.length
  | .refresh _ => 10 + 2 * n
  | .version => 11 + 2 * n + 2 * w.stealers.length
  | .process job => jobRank (some job)

/-- The calls of a client, and those that what it still pushes will cost. -/
def clientRank : Client → Nat
  | .idle => 0
  | .admit_message _ _ messages => 43 * messages.length + 5
  | .get_mailbox _ _ messages => 43 * messages.length + 4
  | .get_state _ _ messages => 43 * messages.length + 3
  | .push _ _ pushed _ remaining => 20 * pushed.length + 43 * (remaining.length + 1) + 2
  | .enqueue _ _ additional => 20 * (additional.length + 1) + 2
  | .set_state .. | .kill_unregister _ => 1
  | .kill_clear _ => 2
  | .kill_mailbox _ => 3
  | .kill _ => 4

/-- All stored messages. -/
def stored (g : Shared) : Nat := (g.registry.mailboxes.values.map queued).sum

def taskRank (task : Task) : Nat := 20 * task.messages.length + 1

/-- What the shared state holds for the workers. -/
def sharedRank (g : Shared) : Nat := 22 * stored g + ((tasks g).map taskRank).sum

/-- The calls that are left. -/
def left (s : System) : Nat :=
  sharedRank s.shared + (s.workers.map (workerRank s.shared.stealers.length)).sum + (s.clients.map clientRank).sum

/-! ### Mailboxes -/

theorem stored_on_mailbox {g : Shared} {id : ActorId} {mb : Mailbox} (found : g.registry.mailboxes.lookup id = some mb)
    (f : Mailbox → Mailbox) : stored (g.on_mailbox id f) + queued mb = stored g + queued (f mb) :=
  sum_modify queued found f

theorem stored_le {g : Shared} {id : ActorId} {f : Mailbox → Mailbox} (more : Nat)
    (bound : ∀ mb, g.registry.mailboxes.lookup id = some mb → queued (f mb) ≤ queued mb + more) :
    stored (g.on_mailbox id f) ≤ stored g + more := by
  cases found : g.registry.mailboxes.lookup id with
  | none =>
    have same : g.registry.mailboxes.modify id f = g.registry.mailboxes := Dict.modify_absent _ _ _ found
    simp only [stored,Shared.on_mailbox,ActorRegistry.on_mailbox,same]
    omega
  | some mb =>
    have moved := stored_on_mailbox found f
    have grown := bound mb found
    omega

section
variable {mailboxes : MailboxConfig} (fits : mailboxes.capacity < 2 ^ 64)
include fits

/-- A receive takes one message if there is one. -/
theorem queued_received {mb : Mailbox} (sound : Sound mailboxes mb) :
    queued mb.try_recv.1 ≤ queued mb ∧ (∀ m, mb.try_recv.2 = some m → queued mb.try_recv.1 + 1 = queued mb) := by
  by_cases empty : contents mb = []
  · rw [try_recv_empty empty]
    exact ⟨Nat.le_refl _,by simp⟩
  · obtain ⟨mb',m,taken,-,split⟩ := try_recv_takes fits sound empty
    have counted := congrArg List.length split
    rw [List.length_cons,contents_length,contents_length] at counted
    rw [taken]
    dsimp only
    exact ⟨by omega,fun _ _ => by omega⟩

theorem queued_cleared {mb : Mailbox} (sound : Sound mailboxes mb) : queued mb.clear = 0 := by
  rw [← contents_length,(clear_sound fits sound).2]
  rfl

theorem queued_sent {mb : Mailbox} (sound : Sound mailboxes mb) (m : Message) : queued (mb.try_send m).1 ≤ queued mb + 1 := by
  rcases try_send_stores fits sound m with ⟨-,refused⟩ | ⟨mb',sent,-,perm⟩
  · rw [refused]
    exact Nat.le_succ _
  · have counted := perm.length_eq
    rw [List.length_cons,contents_length,contents_length] at counted
    rw [sent]
    exact counted.le

/-! ### Workers -/

omit fits in
/-- A message that is over leaves the return to its drain, or the next one of the
    batch. -/
theorem jobRank_finish (job : Job) : jobRank job.finish + stageRank job.stage ≤ jobRank (some job) + 2 := by
  obtain ⟨id,batch,rest,depth,stage⟩ := job
  have check : stageRank .check = 2 := rfl
  have drain : stageRank .drain = 14 := rfl
  cases depth with
  | zero =>
    cases batch
    · show 1 + stageRank stage ≤ 20 * rest.length + 13 * 0 + stageRank stage + 2
      omega
    · show 20 * rest.length + 13 * 0 + stageRank .check + stageRank stage ≤ 20 * rest.length + 13 * 0 + stageRank stage + 2
      omega
  | succ depth =>
    show 20 * rest.length + 13 * depth + stageRank .drain + stageRank stage ≤
      20 * rest.length + 13 * (depth + 1) + stageRank stage + 2
    omega

/-- While nobody sleeps every call of a task leaves fewer. -/
theorem job_fewer {config : SchedulerConfig} {g g' : Shared} {execution : Execution} {job : Job} {next : Option Job}
    (kept : Kept mailboxes g.registry) (states : ∀ id, g.registry.get_state id ≠ some .Suspended)
    (steps : job.step config g execution = (g',next)) :
    22 * stored g' + jobRank next < 22 * stored g + jobRank (some job) := by
  obtain ⟨id,batch,rest,depth,stage⟩ := job
  have finished := jobRank_finish ⟨id,batch,rest,depth,stage⟩
  have sameSet : ∀ state, stored (g.set_state id state) = stored g := by
    intro state
    rw [stored,Shared.set_state,(set_state_mailboxes g.registry id state).1,stored]
  have received : stored (g.on_mailbox id (fun mb => mb.try_recv.1)) ≤ stored g + 0 :=
    stored_le 0 (fun mb found => (queued_received fits (kept.sound id mb found)).1)
  have cleared : stored (g.on_mailbox id Mailbox.clear) ≤ stored g + 0 :=
    stored_le 0 (fun mb found => by rw [queued_cleared fits (kept.sound id mb found)]; omega)
  cases job_move steps with
  | asleep_control asleep | asleep_requeue asleep => exact absurd asleep (states id)
  | @handled m change =>
    cases change <;> simp [stored,Shared.log_executed,jobRank,stageRank,Stage.after]
  | fails | panics => simp [stored,Shared.log_executed,jobRank,stageRank]
  | assigns | fail_assigns | control_assigns | panic_assigns =>
    rw [sameSet]
    simp [jobRank,stageRank]
  | records => simp [stored,ActorRegistry.record_processed,jobRank,stageRank]
  | absent | unboxed | fail_unboxed | unwoken | drain_unboxed | drain_ends | pop_ends | requeue_unboxed =>
    simp only [stageRank] at finished
    omega
  | releases =>
    simp only [stageRank] at finished
    omega
  | fail_clears =>
    simp only [stageRank] at finished
    omega
  | control_releases =>
    simp only [jobRank,stageRank]
    omega
  | panic_clears =>
    simp only [jobRank,stageRank]
    omega
  | @pops mb queued found taken =>
    have one := (queued_received fits (kept.sound id mb found)).2 queued taken
    have moved := stored_on_mailbox found (fun mb => mb.try_recv.1)
    simp only [jobRank,stageRank]
    omega
  | @requeue_pushes m =>
    have grown : stored (g.on_mailbox id (fun mb => (mb.try_send m).1)) ≤ stored g + 1 :=
      stored_le 1 (fun mb found => queued_sent fits (kept.sound id mb found) m)
    simp only [stageRank] at finished
    omega
  | batch_next viable more =>
    subst more
    simp only [jobRank,stageRank,List.length_cons]
    omega
  | _ =>
    simp only [jobRank,stageRank]
    omega

end

theorem tasks_set {g g' : Shared} {lane : Lane} {after : List Task} (injectors : g'.injectors = g.injectors.set lane after)
    (deques : g'.deques = g.deques) :
    ((tasks g').map taskRank).sum + ((g.injectors.get lane).map taskRank).sum =
      ((tasks g).map taskRank).sum + (after.map taskRank).sum := by
  cases lane <;>
    simp only [tasks,injectors,deques,Injectors.set,Injectors.get,List.map_append,List.sum_append] <;>
    omega

theorem rotated_stealers (w : Worker) : w.rotated.stealers = w.stealers := by
  unfold Worker.rotated
  split <;> rfl

theorem next_rank (n max stolen : Nat) (victims : List Nat) (w : Worker) :
    workerRank n { w with pc := .next_victim max victims stolen } ≤ 1 + victims.length := by
  cases victims with
  | nil => exact Nat.le_refl _
  | cons victim victims =>
    simp only [WorkerPc.next_victim]
    split
    · exact Nat.le_add_right ..
    · simp only [workerRank,List.length_cons]
      omega

theorem victims_length (w : Worker) : w.victims.length ≤ w.stealers.length := by
  refine (List.length_filterMap_le _ _).trans_eq ?_
  rw [round_robin,List.length_map,List.length_range]

/-- No call of a job touches the registered workers or the running flag. -/
theorem effect_flags {id : ActorId} {messages : List Message} {g g' : Shared} (effect : Effect id messages g g') :
    g'.stealers = g.stealers ∧ g'.running = g.running := by
  cases effect <;> exact ⟨rfl,rfl⟩

/-- What a call of a worker leaves once the scheduler has stopped. -/
structure Fewer (g : Shared) (w : Worker) (g' : Shared) (w' : Worker) : Prop where
  calls : sharedRank g' + workerRank g.stealers.length w' < sharedRank g + workerRank g.stealers.length w
  stealers : g'.stealers = g.stealers
  stopped : g'.running = false
  /-- Whoever takes a task looks for no other. -/
  takes : g'.history.taken.length + (if hunts w' then 1 else 0) ≤ g.history.taken.length + (if hunts w then 1 else 0)

section
variable {mailboxes : MailboxConfig} (fits : mailboxes.capacity < 2 ^ 64)
include fits

theorem worker_works {config : SchedulerConfig} {g g' : Shared} {execution : Execution} {job : Job} {next : Option Job}
    {w : Worker} {pc : WorkerPc} (kept : Kept mailboxes g.registry)
    (states : ∀ id, g.registry.get_state id ≠ some .Suspended) (stopped : g.running = false) (works : w.pc = .process job)
    (goes : workerRank g.stealers.length { w with pc } = jobRank next) (idle : hunts { w with pc } = false)
    (steps : job.step config g execution = (g',next)) : Fewer g w g' { w with pc } := by
  have effect := step_effect steps
  have frame := effect_frame effect
  obtain ⟨stealers,running⟩ := effect_flags effect
  have fewer := job_fewer fits kept states steps
  refine ⟨?_,stealers,running.trans stopped,?_⟩
  · rw [goes,sharedRank,sharedRank,tasks_congr frame.injectors frame.deques]
    simp only [workerRank,works]
    omega
  · rw [frame.taken,idle]
    exact Nat.le_add_right ..

theorem worker_fewer {config : SchedulerConfig} {g g' : Shared} {execution : Execution} {moved : Nat} {w w' : Worker}
    (kept : Kept mailboxes g.registry) (states : ∀ id, g.registry.get_state id ≠ some .Suspended)
    (stopped : g.running = false) (empty : ∀ d ∈ g.deques, d = []) (carried : carries w = false)
    (stepped : w.step config g execution moved = some (g',w')) : Fewer g w g' w' := by
  obtain ⟨worker_id,deque,iteration,last_version,stealers,index,pc⟩ := w
  have looked : ∀ {v : Worker}, workerRank g.stealers.length v <
      workerRank g.stealers.length ⟨worker_id,deque,iteration,last_version,stealers,index,pc⟩ →
      hunts ⟨worker_id,deque,iteration,last_version,stealers,index,pc⟩ = true →
      Fewer g ⟨worker_id,deque,iteration,last_version,stealers,index,pc⟩ g v := by
    intro v less hunting
    refine ⟨by omega,rfl,stopped,?_⟩
    rw [if_pos hunting]
    split <;> omega
  cases pc with
  | exited => cases stepped
  | head =>
    simp only [Worker.step,stopped,Bool.not_false,if_true] at stepped
    cases stepped
    exact ⟨Nat.lt_succ_self _,rfl,stopped,Nat.le_refl _⟩
  | version =>
    simp only [Worker.step] at stepped
    split at stepped <;> cases stepped
    · exact looked (by simp only [workerRank]; omega) rfl
    · exact looked (by simp only [workerRank]; omega) rfl
  | refresh current =>
    cases stepped
    have part := List.length_filter_le (fun s : Nat × Nat => decide (s.1 ≠ worker_id)) g.stealers
    refine looked ?_ rfl
    simp only [workerRank,List.length_map]
    omega
  | pop lane =>
    simp only [Worker.step] at stepped
    split at stepped
    · next task rest found =>
      cases stepped
      have sums := @tasks_set g ({ g with injectors := g.injectors.set lane rest }.log_taken task) lane rest rfl rfl
      rw [found,List.map_cons,List.sum_cons] at sums
      have price : taskRank task = 20 * (task.additional_messages.length + 1) + 1 := rfl
      have begun : workerRank g.stealers.length ⟨worker_id,deque,iteration,last_version,stealers,index,.process (.start task)⟩ =
          20 * task.additional_messages.length + 20 := rfl
      have lanes : 1 ≤ workerRank g.stealers.length ⟨worker_id,deque,iteration,last_version,stealers,index,.pop lane⟩ := by
        cases lane <;> simp only [workerRank] <;> omega
      refine ⟨?_,rfl,stopped,?_⟩
      · show 22 * stored g + _ + _ < 22 * stored g + _ + _
        omega
      · simp [Shared.log_taken,hunts]
    · cases stepped
      cases lane with
      | global =>
        have same := rotated_stealers ⟨worker_id,deque,iteration,last_version,stealers,index,.pop .global⟩
        have few : (Worker.victims ⟨worker_id,deque,iteration,last_version,stealers,index,.pop .global⟩).length ≤
            stealers.length := victims_length _
        refine looked ?_ rfl
        simp only [Worker.after_lane,workerRank,same]
        omega
      | _ => exact looked (by simp only [Worker.after_lane,workerRank]; omega) rfl
  | pop_local =>
    simp only [Worker.step] at stepped
    split at stepped
    · next found => exact absurd found (local_head empty)
    · cases stepped
      exact looked (by simp only [workerRank]; omega) rfl
  | steal victims =>
    simp only [Worker.step] at stepped
    split at stepped
    · cases stepped
      have next := next_rank g.stealers.length config.max_steal_batch 0
        (Worker.victims ⟨worker_id,deque,iteration,last_version,stealers,index,.steal []⟩)
        (Worker.rotated ⟨worker_id,deque,iteration,last_version,stealers,index,.steal []⟩)
      have few : (Worker.victims ⟨worker_id,deque,iteration,last_version,stealers,index,.steal []⟩).length ≤
          stealers.length := victims_length _
      refine looked (lt_of_le_of_lt next ?_) rfl
      simp only [workerRank,List.length_nil]
      omega
    · split at stepped
      · next found => exact absurd found (local_head empty)
      · cases stepped
        exact looked (by simp only [workerRank,List.length_cons]; omega) rfl
  | steal_batch victim victims stolen =>
    simp only [Worker.step] at stepped
    split at stepped
    · next found => exact absurd found (local_head empty)
    · cases stepped
      have next := next_rank g.stealers.length config.max_steal_batch stolen victims
        ⟨worker_id,deque,iteration,last_version,stealers,index,.steal_batch victim victims stolen⟩
      refine looked (lt_of_le_of_lt next ?_) rfl
      simp only [workerRank]
      omega
  | push_local task victim victims stolen => cases carried
  | process job =>
    simp only [Worker.step] at stepped
    split at stepped
    · next next steps =>
      cases stepped
      exact @worker_works mailboxes fits config g _ execution job (some next)
        ⟨worker_id,deque,iteration,last_version,stealers,index,.process job⟩ (.process next) kept states stopped rfl rfl rfl
        (Prod.ext rfl steps)
    · next steps =>
      cases stepped
      exact @worker_works mailboxes fits config g _ execution job none
        ⟨worker_id,deque,iteration,last_version,stealers,index,.process job⟩ .head kept states stopped rfl rfl rfl
        (Prod.ext rfl steps)

/-! ### Clients -/

omit fits in
theorem pushing_rank (kind : SendKind) (target : ActorId) (pushed messages : List Message) :
    clientRank (.pushing kind target pushed messages) ≤ 20 * pushed.length + 43 * messages.length + 2 := by
  cases messages with
  | cons message remaining => exact Nat.le_refl _
  | nil =>
    cases pushed with
    | nil => exact Nat.zero_le _
    | cons first additional => exact Nat.le_refl _

/-- Every call of a client leaves fewer. -/
theorem client_fewer {config : SchedulerConfig} {g g' : Shared} {i : Nat} {call : Call} {admitted : Bool} {c c' : Client}
    (kept : Kept mailboxes g.registry) (begun : c ≠ .idle) (stepped : c.step config g i call admitted = some (g',c')) :
    sharedRank g' + clientRank c' < sharedRank g + clientRank c ∧ g'.stealers = g.stealers ∧ g'.running = g.running ∧
      g'.history.taken = g.history.taken := by
  have sameSet : ∀ id state, sharedRank (g.set_state id state) = sharedRank g := by
    intro id state
    rw [sharedRank,stored,Shared.set_state,(set_state_mailboxes g.registry id state).1]
    rfl
  cases c with
  | idle => exact absurd rfl begun
  | admit_message kind target messages =>
    cases stepped
    refine ⟨?_,rfl,rfl,rfl⟩
    cases admitted <;> simp only [clientRank,if_true,if_false,Bool.false_eq_true] <;> omega
  | get_mailbox kind target messages =>
    have pushing := pushing_rank kind target [] messages
    simp only [Client.step] at stepped
    split at stepped
    · cases stepped
      exact ⟨by simp only [clientRank]; omega,rfl,rfl,rfl⟩
    · split at stepped <;> cases stepped
      · exact ⟨by simp only [clientRank]; omega,rfl,rfl,rfl⟩
      · exact ⟨by simp only [clientRank]; omega,rfl,rfl,rfl⟩
      · refine ⟨?_,rfl,rfl,rfl⟩
        rw [List.length_nil] at pushing
        simp only [clientRank] at pushing ⊢
        omega
  | get_state kind target messages =>
    have pushing := pushing_rank kind target [] messages
    rw [List.length_nil] at pushing
    have here : clientRank (.get_state kind target messages) = 43 * messages.length + 3 := rfl
    simp only [Client.step] at stepped
    split at stepped <;> cases stepped
    · exact ⟨by simp only [clientRank]; omega,rfl,rfl,rfl⟩
    · exact ⟨by simp only [clientRank]; omega,rfl,rfl,rfl⟩
    all_goals exact ⟨by omega,rfl,rfl,rfl⟩
  | push kind target pushed m remaining =>
    simp only [Client.step] at stepped
    split at stepped
    · cases stepped
    · next mb found =>
      split at stepped
      · cases stepped
      · next mb' pushes =>
        cases stepped
        obtain ⟨-,-,refused⟩ := push_one_sound fits (kept.sound _ _ found) pushes
        have moved := stored_on_mailbox found (fun _ => mb')
        rw [(refused rfl).1] at moved
        refine ⟨?_,rfl,rfl,rfl⟩
        rw [(refused rfl).1]
        show 22 * stored (g.on_mailbox target (fun _ => mb)) + ((tasks g).map taskRank).sum + 0 <
          22 * stored g + ((tasks g).map taskRank).sum + (20 * pushed.length + 43 * (remaining.length + 1) + 2)
        omega
      · next mb' pushes =>
        cases stepped
        obtain ⟨-,accepted,-⟩ := push_one_sound fits (kept.sound _ _ found) pushes
        have counted := (accepted rfl).length_eq
        rw [List.length_cons,contents_length,contents_length] at counted
        have moved := stored_on_mailbox found (fun _ => mb')
        have pushing := pushing_rank kind target (pushed ++ [m]) remaining
        rw [List.length_append,List.length_singleton] at pushing
        refine ⟨?_,rfl,rfl,rfl⟩
        show 22 * stored (g.on_mailbox target (fun _ => mb')) + ((tasks g).map taskRank).sum + _ <
          22 * stored g + ((tasks g).map taskRank).sum + (20 * pushed.length + 43 * (remaining.length + 1) + 2)
        omega
  | enqueue target first additional =>
    cases stepped
    have price : taskRank (task_of target first additional) = 20 * (additional.length + 1) + 1 := rfl
    have fewer : ∀ lane g', g'.injectors = g.injectors.set lane (g.injectors.get lane ++ [task_of target first additional]) →
        g'.deques = g.deques → stored g' = stored g →
        sharedRank g' < sharedRank g + clientRank (.enqueue target first additional) := by
      intro lane g' injectors deques same
      have sums := tasks_set injectors deques
      rw [List.map_append,List.sum_append,List.map_singleton,List.sum_singleton,price] at sums
      simp only [sharedRank,same,clientRank]
      omega
    exact ⟨fewer _ _ rfl rfl rfl,rfl,rfl,rfl⟩
  | set_state id state =>
    cases stepped
    refine ⟨?_,rfl,rfl,rfl⟩
    rw [sameSet]
    exact Nat.lt_succ_self _
  | kill id =>
    simp only [Client.step] at stepped
    split at stepped <;> cases stepped
    · refine ⟨?_,rfl,rfl,rfl⟩
      rw [sameSet]
      simp only [clientRank]
      omega
    · exact ⟨by simp only [clientRank]; omega,rfl,rfl,rfl⟩
  | kill_mailbox id =>
    simp only [Client.step] at stepped
    split at stepped <;> cases stepped <;> exact ⟨by simp only [clientRank]; omega,rfl,rfl,rfl⟩
  | kill_clear id =>
    cases stepped
    have cleared : stored (g.on_mailbox id Mailbox.clear) ≤ stored g + 0 :=
      stored_le 0 (fun mb found => by rw [queued_cleared fits (kept.sound id mb found)]; omega)
    refine ⟨?_,rfl,rfl,rfl⟩
    show 22 * stored (g.on_mailbox id Mailbox.clear) + ((tasks g).map taskRank).sum + 1 <
      22 * stored g + ((tasks g).map taskRank).sum + 2
    omega
  | kill_unregister id =>
    cases stepped
    refine ⟨?_,rfl,rfl,rfl⟩
    rw [sharedRank,stored,unregister_mailboxes]
    exact Nat.lt_succ_self _

end

/-! ## Nobody waits without a mailbox -/

/-- The actor whose mailbox a send has found. -/
def bound : Client → Option ActorId
  | .get_state _ target _ | .push _ target _ _ _ => some target
  | _ => none

/-- The mailbox a send pushes to exists. -/
def Boxed (s : System) : Prop := ∀ c ∈ s.clients, ∀ a, bound c = some a → (s.shared.registry.mailboxes.lookup a).isSome

theorem pushing_bound {kind : SendKind} {target a : ActorId} {pushed messages : List Message}
    (sends : bound (.pushing kind target pushed messages) = some a) : target = a := by
  cases messages with
  | cons => exact Option.some.inj sends
  | nil => cases pushed <;> cases sends

theorem client_bound {config : SchedulerConfig} {g g' : Shared} {i : Nat} {call : Call} {admitted : Bool} {c c' : Client}
    (stepped : c.step config g i call admitted = some (g',c')) {a : ActorId} (sends : bound c' = some a) :
    bound c = some a ∨ (g.registry.mailboxes.lookup a).isSome := by
  cases c with
  | idle =>
    have entered : Client.enter g call = (g',c') := Option.some.inj stepped
    have unbound : bound (Client.enter g call).2 = none := by
      unfold Client.enter
      split <;> (try split) <;> rfl
    rw [entered,sends] at unbound
    cases unbound
  | admit_message kind target messages =>
    cases stepped
    cases admitted <;> cases sends
  | get_mailbox kind target messages =>
    simp only [Client.step] at stepped
    split at stepped
    · cases stepped
      cases sends
    · next mb found =>
      right
      have here : (g.registry.mailboxes.lookup target).isSome := by
        unfold ActorRegistry.get_mailbox at found
        split at found
        · rw [found]
          rfl
        · cases found
      split at stepped <;> cases stepped
      · cases sends
        exact here
      · cases sends
        exact here
      · rw [← pushing_bound sends]
        exact here
  | get_state kind target messages =>
    left
    simp only [Client.step] at stepped
    split at stepped <;> cases stepped
    · cases sends
    · cases sends
    all_goals exact congrArg some (pushing_bound sends)
  | push kind target pushed m remaining =>
    left
    simp only [Client.step] at stepped
    split at stepped
    · cases stepped
    · split at stepped
      · cases stepped
      · cases stepped
        cases sends
      · cases stepped
        exact congrArg some (pushing_bound sends)
  | kill | kill_mailbox =>
    simp only [Client.step] at stepped
    split at stepped <;> cases stepped <;> cases sends
  | enqueue | set_state | kill_clear | kill_unregister =>
    cases stepped
    cases sends

theorem boxed_run_step {s s' : System} {label : Label} (noLocal : NoLocal s) (boxed : Boxed s)
    (stepped : s.step label = some s') : Boxed s' := by
  obtain ⟨move,-⟩ := step_move noLocal stepped
  have stays : ∀ a, (s.shared.registry.mailboxes.lookup a).isSome → (s'.shared.registry.mailboxes.lookup a).isSome :=
    fun a => Killed.boxed_step move
  intro c' listed a sends
  cases label with
  | client i call admitted =>
    obtain ⟨c,found,rest⟩ := Option.bind_eq_some_iff.mp stepped
    obtain ⟨⟨g',after⟩,moved,same⟩ := Option.bind_eq_some_iff.mp rest
    cases same
    rcases List.mem_or_eq_of_mem_set listed with old | rfl
    · exact stays a (boxed c' old a sends)
    · rcases client_bound moved sends with before | here
      · exact stays a (boxed c (List.mem_of_getElem? found) a before)
      · exact stays a here
  | drop_send i =>
    cases move with
    | drop_send found =>
      rcases List.mem_or_eq_of_mem_set listed with old | rfl
      · exact stays a (boxed c' old a sends)
      · cases sends
  | worker | spawn | receive | start_worker | set_running =>
    cases move
    exact stays a (boxed c' listed a sends)

/-! ## The end -/

/-- A scheduler that has been stopped. -/
structure Stopping (s : System) : Prop where
  fits : s.config.mailbox_config.capacity < 2 ^ 64
  sane : Sane s
  awake : Awake s
  boxed : Boxed s
  stopped : s.shared.running = false

/-- The tasks taken so far, and those that workers may still find. -/
def reaches (s : System) : Nat := s.shared.history.taken.length + s.workers.countP hunts

theorem left_fewer {s s' : System} {label : Label} (stopping : Stopping s) (underway : Underway s label)
    (stepped : s.step label = some s') : s'.shared.running = false ∧ left s' < left s ∧ reaches s' ≤ reaches s := by
  cases label with
  | worker i execution moved =>
    obtain ⟨w,found,rest⟩ := Option.bind_eq_some_iff.mp stepped
    obtain ⟨⟨g',w'⟩,moved,same⟩ := Option.bind_eq_some_iff.mp rest
    cases same
    have member := List.mem_of_getElem? found
    have fewer := worker_fewer stopping.fits stopping.sane.registry stopping.awake.shared.states stopping.stopped
      stopping.sane.empty (stopping.sane.carried w member) moved
    have ranks := sum_map_set (workerRank s.shared.stealers.length) found w'
    have hunting := countP_set (p := hunts) found w'
    refine ⟨fewer.stopped,?_,?_⟩
    · have calls := fewer.calls
      simp only [left,fewer.stealers]
      omega
    · have takes := fewer.takes
      simp only [reaches]
      omega
  | client i call admitted =>
    obtain ⟨c,found,rest⟩ := Option.bind_eq_some_iff.mp stepped
    obtain ⟨⟨g',c'⟩,moved,same⟩ := Option.bind_eq_some_iff.mp rest
    cases same
    have begun : c ≠ .idle := fun idle => underway (by rw [found,idle])
    obtain ⟨fewer,stealers,running,taken⟩ := client_fewer stopping.fits stopping.sane.registry begun moved
    have ranks := sum_map_set clientRank found c'
    refine ⟨running.trans stopping.stopped,?_,?_⟩
    · simp only [left,stealers]
      omega
    · simp only [reaches,taken]
      exact Nat.le_refl _
  | drop_send | spawn | receive | start_worker | set_running => exact underway.elim

theorem stopping_step {s s' : System} {label : Label} (stopping : Stopping s) (underway : Underway s label)
    (stepped : s.step label = some s') : Stopping s' where
  fits := by rw [config_step stepped]; exact stopping.fits
  sane := sane_step stopping.fits stopping.sane stepped
  awake := awake_step stopping.fits stopping.sane stopping.awake underway stepped
  boxed := boxed_run_step stopping.sane.toNoLocal stopping.boxed stepped
  stopped := (left_fewer stopping underway stepped).1

/-- Only a worker that has exited makes no call. -/
theorem worker_halts {config : SchedulerConfig} {g : Shared} {w : Worker} {execution : Execution}
    (halts : w.step config g execution 0 = none) : w.pc = .exited := by
  obtain ⟨worker_id,deque,iteration,last_version,stealers,index,pc⟩ := w
  cases pc with
  | exited => rfl
  | head | version | pop | pop_local | steal_batch | process =>
    simp only [Worker.step] at halts
    repeat' split at halts
    all_goals cases halts
  | steal victims =>
    simp only [Worker.step] at halts
    repeat' split at halts
    all_goals cases halts
  | refresh | push_local => cases halts

/-- Only a send that waits for a permit makes no call. -/
theorem client_halts {config : SchedulerConfig} {g : Shared} {i : Nat} {call : Call} {c : Client}
    (halts : c.step config g i call true = none) : ∃ kind target pushed m remaining,
      c = .push kind target pushed m remaining ∧ ∀ mb, g.registry.mailboxes.lookup target = some mb → push_one kind mb m = none := by
  cases c with
  | push kind target pushed m remaining =>
    refine ⟨kind,target,pushed,m,remaining,rfl,fun mb found => ?_⟩
    simp only [Client.step,found] at halts
    split at halts
    · next waits => exact waits
    · cases halts
    · cases halts
  | get_mailbox | get_state | kill | kill_mailbox =>
    simp only [Client.step] at halts
    repeat' split at halts
    all_goals cases halts
  | _ => cases halts

theorem push_waits {mb : Mailbox} {kind : SendKind} {m : Message} (waits : push_one kind mb m = none) : mb.permits = 0 := by
  have sends : mb.send m = none → mb.permits = 0 := by
    intro blocked
    unfold Mailbox.send Mailbox.try_acquire at blocked
    by_cases empty : mb.permits = 0
    · exact empty
    · simp only [empty,if_false] at blocked
      split at blocked <;> cases blocked
  cases kind with
  | try_send =>
    simp only [push_one] at waits
    split at waits <;> cases waits
  | send | send_batch =>
    simp only [push_one] at waits
    split at waits
    · cases waits
    · cases waits
    · next blocked => exact sends blocked

theorem stopping_settles {s : System} (stopping : Stopping s) (stuck : Stuck System.step Underway s) : ShutDown s := by
  constructor
  · intro w member
    obtain ⟨i,found⟩ := List.getElem?_of_mem member
    have halts := stuck (.worker i (.returns .Success) 0) trivial
    refine @worker_halts s.config s.shared w (.returns .Success) ?_
    cases moves : w.step s.config s.shared (.returns .Success) 0 with
    | none => rfl
    | some after =>
      rw [System.step,found,Option.bind_eq_bind,Option.bind_some,moves] at halts
      cases halts
  · intro c member
    by_cases idle : c = .idle
    · exact .inl idle
    · obtain ⟨i,found⟩ := List.getElem?_of_mem member
      have halts := stuck (.client i (.kill ⟨0⟩) true) (by simpa [Underway,found] using idle)
      have waits : c.step s.config s.shared i (.kill ⟨0⟩) true = none := by
        cases moves : c.step s.config s.shared i (.kill ⟨0⟩) true with
        | none => rfl
        | some after =>
          rw [System.step,found,Option.bind_eq_bind,Option.bind_some,moves] at halts
          cases halts
      obtain ⟨kind,target,pushed,m,remaining,rfl,blocked⟩ := client_halts waits
      obtain ⟨mb,boxed⟩ := Option.isSome_iff_exists.mp (stopping.boxed _ member target rfl)
      have empty := push_waits (blocked mb boxed)
      have permits := (stopping.sane.registry.sound target mb boxed).permits
      refine .inr ⟨kind,target,pushed,m,remaining,mb,rfl,boxed,empty,?_⟩
      rw [contents_length]
      omega

/-- After `stop`, where no actor is suspended and nothing is under way that suspends
    one, the workers and the calls in progress come to an end, whatever the executor
    answers and in every order of their steps: then every worker has exited and every
    send is over or waits in front of a full mailbox. Meanwhile no more tasks are taken
    than workers were looking for one. -/
theorem shutdown_ends {config : SchedulerConfig} (fits : config.mailbox_config.capacity < 2 ^ 64) {n : Nat} {s : System}
    (reached : Reachable System.step (.init config n) s) (stopped : s.shared.running = false) (awake : Awake s) :
    ComesTo System.step Underway ShutDown s ∧ ∀ k s', Takes System.step Underway s k s' →
      s'.shared.history.taken.length ≤ s.shared.history.taken.length + s.workers.countP hunts := by
  have starts : Boxed (.init config n) := by
    intro c member a sends
    rw [(List.mem_replicate.mp member).2] at sends
    cases sends
  have keeps : ∀ t label t', (t.config = config ∧ Sane t ∧ Boxed t) → True → t.step label = some t' →
      t'.config = config ∧ Sane t' ∧ Boxed t' := by
    rintro t label t' ⟨same,sane,boxed⟩ - stepped
    exact ⟨(config_step stepped).trans same,sane_step (by rw [same]; exact fits) sane stepped,
      boxed_run_step sane.toNoLocal boxed stepped⟩
  obtain ⟨same,sane,boxed⟩ := reached.invariant ⟨rfl,sane_init config n,starts⟩ keeps
  have stopping : Stopping s := ⟨by rw [same]; exact fits,sane,awake,boxed,stopped⟩
  have decreases : ∀ t label t', Stopping t → Underway t label → t.step label = some t' → Stopping t' ∧ left t' < left t :=
    fun t label t' inv underway stepped =>
      ⟨stopping_step inv underway stepped,(left_fewer inv underway stepped).2.1⟩
  refine ⟨comesTo_of_measure Stopping left decreases (fun t inv stuck => stopping_settles inv stuck) stopping,?_⟩
  have within : ∀ t label t', (Stopping t ∧ reaches t ≤ reaches s) → Underway t label → t.step label = some t' →
      Stopping t' ∧ reaches t' ≤ reaches s := by
    rintro t label t' ⟨inv,less⟩ underway stepped
    exact ⟨stopping_step inv underway stepped,Nat.le_trans (left_fewer inv underway stepped).2.2 less⟩
  intro k s' takes
  have last := (takes.reach .start).invariant ⟨stopping,Nat.le_refl _⟩ within
  have less := last.2
  simp only [reaches] at less
  omega

/-- A worker has begun to look for a task when the scheduler is stopped; a message
    waits for it. -/
def stoppedLate : List Label :=
  [.start_worker 0,.set_running true,.spawn ⟨1⟩ none] ++ sending (.Custom [1]) .Normal ++
    [.worker 0 (.returns .Success) 0,.set_running false]

/-- The worker may still take the task, and exits. -/
theorem shutdown_ends_late : ∃ s, Reachable System.step (.init {} 1) s ∧ s.shared.running = false ∧
    (tasks s.shared).length = 1 ∧ ComesTo System.step Underway ShutDown s ∧
    ∀ k s', Takes System.step Underway s k s' → s'.shared.history.taken.length ≤ 1 := by
  let m : Message := { sender := none, payload := .Custom [1], priority := .Normal, uid := 0 }
  have seen : (run System.step (.init {} 1) stoppedLate).map (fun s =>
      (s.shared.running,s.shared.registry.by_id.values.map (·.state),s.shared.registry.mailboxes.values.map contents,
        tasks s.shared)) = some (false,[.Creating],[[m]],[task_of ⟨1⟩ m []]) := by decide +kernel
  have busy : (run System.step (.init {} 1) stoppedLate).map (fun s =>
      (s.workers.filterMap holding,s.clients.map clientRank,reaches s)) = some ([],[0],1) := by decide +kernel
  obtain ⟨s,runs,same⟩ := Option.map_eq_some_iff.mp seen
  rw [runs] at busy
  simp only [Option.map_some,Option.some.injEq,Prod.mk.injEq] at same busy
  obtain ⟨stopped,states,boxes,queued⟩ := same
  obtain ⟨held,clients,within⟩ := busy
  have wakeful : Wakeful m := by simp [Wakeful,m]
  have awake : Awake s := by
    refine ⟨⟨fun id asleep => ?_,fun id mb found m' listed => ?_⟩,?_,fun w member job holds => ?_,?_⟩
    · obtain ⟨e,found,state⟩ := Option.map_eq_some_iff.mp asleep
      have entry := (Dict.mem_items _ _ _).mpr found
      have listed : e.state ∈ s.shared.registry.by_id.values.map (·.state) :=
        List.mem_map_of_mem (List.mem_map_of_mem entry)
      rw [states,state] at listed
      simp at listed
    · have entry := (Dict.mem_items _ _ _).mpr found
      have box : contents mb ∈ s.shared.registry.mailboxes.values.map contents :=
        List.mem_map_of_mem (List.mem_map_of_mem entry)
      rw [boxes,List.mem_singleton] at box
      rw [box,List.mem_singleton] at listed
      rw [listed]
      exact wakeful
    · rw [queued]
      intro task member m' listed
      rw [List.mem_singleton.mp member] at listed
      rw [List.mem_singleton.mp listed]
      exact wakeful
    · have listed : job ∈ s.workers.filterMap holding := List.mem_filterMap.mpr ⟨w,member,holds⟩
      rw [held] at listed
      cases listed
    · intro c member
      have rank : clientRank c ∈ s.clients.map clientRank := List.mem_map_of_mem member
      rw [clients,List.mem_singleton] at rank
      cases c with
      | idle => exact plain_idle
      | _ => simp [clientRank] at rank
  have reached : Reachable System.step (.init {} 1) s := reachable_run .start runs
  obtain ⟨ends,takes⟩ := shutdown_ends (by decide) reached stopped awake
  exact ⟨s,reached,stopped,by rw [queued]; rfl,ends,fun k s' taken => within ▸ takes k s' taken⟩

end ActorKit.Shutdown
