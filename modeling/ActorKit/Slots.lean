import ActorKit.Inventory

/-!
# Mailbox slots

Every accepted message occupies a slot of its mailbox until the worker that
processes its task has released one. While an actor is neither suspended nor
failed nor killed, each message of a task releases exactly one slot, so the
stored messages are as many as the messages still on their way.
-/

namespace ActorKit.Slots
open ActorKit.mailbox ActorKit.registry ActorKit.queue ActorKit.scheduler ActorKit.MailboxCalls ActorKit.Moves
open ActorKit.Inventory ActorKit.Transition ActorKit.MailboxAccounting ActorKit.Counting

/-- The states in which messages are executed. -/
def Active (state : ActorState) : Prop := state = .Running ∨ state = .Creating

/-- A message that leaves an active actor active. -/
def Harmless (m : Message) : Prop := m.payload ≠ .Stop ∧ m.payload ≠ .Signal .Pause

/-- Steps that leave the actor to its clients and workers: nobody kills it, sets
    it to a state that is not active, drops a send to it or receives from its
    mailbox, and its executor answers `Success` or `NotReady`. -/
def Undisturbed (a : ActorId) (s : System) : Label → Prop
  | .worker i execution _ => ∀ w job m, s.workers[i]? = some w → holding w = some job → job.actor_id = a →
    job.stage = .execute m → s.config.executor = true →
    execution = .returns .Success ∨ execution = .returns .NotReady
  | .client i call _ => s.clients[i]? = some .idle → match call with
    | .kill id => id ≠ a
    | .set_actor_state id state => id = a → Active state
    | _ => True
  | .drop_send i => ∀ kind target pushed m remaining, s.clients[i]? = some (.push kind target pushed m remaining) →
    target ≠ a
  | .receive id => id ≠ a
  | .spawn .. | .start_worker .. | .set_running .. => True

/-- The messages stored for an actor. -/
def stored (a : ActorId) (g : Shared) : Nat :=
  match g.registry.mailboxes.lookup a with
  | some mb => MailboxAccounting.queued mb
  | none => 0

/-- Whether the current message of a job still has to release its slot. Jobs of
    an active actor do not reach the other stages (`Benign`). -/
def pending : Stage → Nat
  | .get_state _ | .execute _ | .set_state _ | .record | .get_mailbox | .release => 1
  | _ => 0

/-- The messages of a job whose slots are not released. -/
def unreleasedJob (job : Job) : Nat := pending job.stage + job.rest.length

def unreleased (a : ActorId) (w : Worker) : Nat :=
  match holding w with
  | some job => if job.actor_id = a then unreleasedJob job else 0
  | none => 0

/-- The stages a job of an active actor goes through. -/
def Benign (job : Job) : Prop :=
  job.depth = 0 ∧ (job.batch = false → job.rest = []) ∧ match job.stage with
    | .get_state _ | .execute _ | .record | .get_mailbox | .release | .check => True
    | .set_state state => Active state
    | _ => False

/-- The messages on their way to an actor: pushed by sends that have not enqueued
    their task, carried by queued tasks, and not released by the workers. -/
def onTheWay (a : ActorId) (clients : List Client) (g : Shared) (workers : List Worker) : Nat :=
  (clients.map (fun c => (pushedBy a c).length)).sum + queuedWeight (fun _ => 1) a g +
    (workers.map (unreleased a)).sum

/-- The account of the slots of one actor. -/
structure Balanced (a : ActorId) (s : System) : Prop where
  active : ∀ state, s.shared.registry.get_state a = some state → Active state
  present : (s.shared.registry.mailboxes.lookup a).isSome → (s.shared.registry.by_id.lookup a).isSome
  alone : ∀ c ∈ s.clients, ∀ state, meddles c = some (a,state) → Active state
  benign : ∀ w ∈ s.workers, ∀ job, holding w = some job → job.actor_id = a → Benign job
  balance : stored a s.shared = onTheWay a s.clients s.shared s.workers

/-! ## One call of a job -/

theorem harmless_change {m : Message} (harmless : Harmless m) :
    (∀ state, state_change m.payload = some state → Active state) ∧
      ∀ state, success_change m.payload = some state → Active state := by
  obtain ⟨noStop,noPause⟩ := harmless
  constructor <;> intro state changes
  · unfold state_change at changes
    split at changes <;> simp_all [Active]
  · unfold success_change at changes
    split at changes <;> simp_all [Active]

/-- A registered actor with a mailbox. -/
theorem get_mailbox_of {config : MailboxConfig} {r : ActorRegistry} (kept : Kept config r) {a : ActorId}
    (registered : (r.by_id.lookup a).isSome) : ∃ mb, r.get_mailbox a = some mb := by
  obtain ⟨mb,found⟩ := Option.isSome_iff_exists.mp (kept.registered a registered)
  exact ⟨mb,by simp [ActorRegistry.get_mailbox,registered,found]⟩

/-- What one call of a job does to the slots of its own actor. -/
structure JobKeeps (a : ActorId) (g : Shared) (job : Job) (g' : Shared) (next : Option Job) : Prop where
  active : ∀ state, g'.registry.get_state a = some state → Active state
  benign : ∀ job', next = some job' → Benign job'
  balance : stored a g' + unreleasedJob job = stored a g + (next.map unreleasedJob).getD 0

theorem finish_keeps {a : ActorId} {g g' : Shared} {job : Job} (shallow : job.depth = 0)
    (single : job.batch = false → job.rest = [])
    (active : ∀ state, g'.registry.get_state a = some state → Active state)
    (released : stored a g' + pending job.stage = stored a g) : JobKeeps a g job g' job.finish := by
  unfold Job.finish
  rw [shallow]
  cases more : job.batch with
  | true =>
    refine ⟨active,?_,?_⟩
    · rintro next ⟨⟩
      exact ⟨rfl,by simp,trivial⟩
    · show stored a g' + (pending job.stage + job.rest.length) = stored a g + (0 + job.rest.length)
      omega
  | false =>
    refine ⟨active,?_,?_⟩
    · rintro next ⟨⟩
    · simp [unreleasedJob,single more]
      omega

/-- A call that leaves the stored messages and moves on within the arm. -/
theorem goto_keeps {a : ActorId} {g g' : Shared} {job : Job} {stage : Stage}
    (active : ∀ state, g'.registry.get_state a = some state → Active state) (same : stored a g' = stored a g)
    (weighs : pending stage = pending job.stage) (allowed : Benign { job with stage }) :
    JobKeeps a g job g' (some { job with stage }) := by
  refine ⟨active,?_,?_⟩
  · rintro next ⟨⟩
    exact allowed
  · simp [unreleasedJob,weighs,same]

theorem after_benign {job : Job} (benign : Benign job) {change : Option ActorState}
    (harmless : ∀ state, change = some state → Active state) :
    Benign { job with stage := .after change } ∧ pending (.after change) = 1 := by
  cases change with
  | none => exact ⟨⟨benign.1,benign.2.1,trivial⟩,rfl⟩
  | some state => exact ⟨⟨benign.1,benign.2.1,harmless state rfl⟩,rfl⟩

theorem job_keeps {config : SchedulerConfig} (fits : config.mailbox_config.capacity < 2 ^ 64) {g g' : Shared} {job : Job}
    {next : Option Job} {execution : Execution} (kept : Kept config.mailbox_config g.registry) (benign : Benign job)
    (harmless : ∀ m ∈ hand job, Harmless m)
    (active : ∀ state, g.registry.get_state job.actor_id = some state → Active state)
    (registered : 0 < pending job.stage → (g.registry.by_id.lookup job.actor_id).isSome)
    (occupied : 0 < pending job.stage → 0 < stored job.actor_id g)
    (answers : ∀ m, job.stage = .execute m → config.executor = true →
      execution = .returns .Success ∨ execution = .returns .NotReady)
    (steps : job.step config g execution = (g',next)) : JobKeeps job.actor_id g job g' next := by
  obtain ⟨id,batch,rest,depth,stage⟩ := job
  have shallow := benign.1
  have single := benign.2.1
  have lives : ∀ {state : ActorState}, ¬Active state → g.registry.get_state id ≠ some state :=
    fun inactive found => inactive (active _ found)
  cases job_move steps with
  | awake => exact goto_keeps active rfl rfl ⟨shallow,single,trivial⟩
  | asleep_control asleep | asleep_requeue asleep => exact absurd asleep (lives (by simp [Active]))
  | absent gone =>
    obtain ⟨entry,found⟩ := Option.isSome_iff_exists.mp (registered Nat.one_pos)
    rcases gone with stopped | failed | none
    · exact absurd stopped (lives (by simp [Active]))
    · exact absurd failed (lives (by simp [Active]))
    · simp [ActorRegistry.get_state,found] at none
  | @handled m change changes =>
    obtain ⟨states,succeeds⟩ := harmless_change (harmless m List.mem_cons_self)
    have allowed : ∀ state, change = some state → Active state := by
      rcases changes with rfl | ⟨-,-,rfl⟩
      · exact states
      · exact succeeds
    obtain ⟨good,weighs⟩ := after_benign benign allowed
    exact goto_keeps active rfl weighs good
  | fails installed answer =>
    rcases answers _ rfl installed with rfl | rfl <;> simp at answer
  | panics installed answer =>
    rcases answers _ rfl installed with rfl | rfl <;> cases answer
  | @assigns state =>
    refine goto_keeps ?_ ?_ rfl ⟨shallow,single,trivial⟩
    · intro after found
      rw [Shared.set_state,get_state_set,if_pos rfl] at found
      obtain ⟨_,_,rfl⟩ := Option.map_eq_some_iff.mp found
      exact benign.2.2
    · simp only [stored,Shared.set_state,(set_state_mailboxes g.registry id state).1]
  | records =>
    refine goto_keeps ?_ rfl rfl ⟨shallow,single,trivial⟩
    intro after found
    refine active after ?_
    simpa [ActorRegistry.record_processed,ActorRegistry.get_state,Function.comp_def] using found
  | boxed => exact goto_keeps active rfl rfl ⟨shallow,single,trivial⟩
  | unboxed missing =>
    obtain ⟨mb,found⟩ := get_mailbox_of kept (registered Nat.one_pos)
    rw [missing] at found
    cases found
  | releases =>
    refine finish_keeps shallow single active ?_
    have some := occupied Nat.one_pos
    unfold stored at some ⊢
    simp only [Shared.on_mailbox,ActorRegistry.on_mailbox,Dict.lookup_modify,if_true,pending]
    cases found : g.registry.mailboxes.lookup id with
    | none => simp [found] at some
    | some mb =>
      simp only [found] at some ⊢
      have filled : contents mb ≠ [] := by
        intro empty
        rw [← contents_length,empty] at some
        cases some
      obtain ⟨after,first,taken,-,split⟩ := try_recv_takes fits (kept.sound id mb found) filled
      have fewer := congrArg List.length split
      simp only [List.length_cons,contents_length] at fewer
      simp only [Option.map_some,taken]
      omega
  | batch_abandoned dead =>
    rcases dead with failed | stopped
    · exact absurd failed (lives (by simp [Active]))
    · exact absurd stopped (lives (by simp [Active]))
  | batch_done viable done =>
    subst done
    exact ⟨active,by rintro _ ⟨⟩,rfl⟩
  | batch_next viable more =>
    subst more
    refine ⟨active,?_,by simp [unreleasedJob,pending]; omega⟩
    rintro _ ⟨⟩
    exact ⟨shallow,fun none => absurd (single none) (by simp),trivial⟩
  | _ => exact absurd benign.2.2 (by simp)

/-! ## One step of the system -/

theorem stored_congr {a : ActorId} {g g' : Shared}
    (same : g'.registry.mailboxes.lookup a = g.registry.mailboxes.lookup a) : stored a g' = stored a g := by
  simp only [stored,same]

/-- The slots of the actor after another actor's mailbox was used. -/
theorem stored_on_other {a id : ActorId} {g : Shared} {f : Mailbox → Mailbox} (other : a ≠ id) :
    (g.on_mailbox id f).registry.mailboxes.lookup a = g.registry.mailboxes.lookup a := by
  simp [Shared.on_mailbox,ActorRegistry.on_mailbox,other]

theorem weight_start (a : ActorId) (task : Task) :
    (if (Job.start task).actor_id = a then unreleasedJob (.start task) else 0) = weight (fun _ => 1) a task := by
  unfold weight
  by_cases mine : task.actor_id = a
  · simp [Job.start,mine,unreleasedJob,pending,Task.messages,Nat.add_comm]
  · simp [Job.start,mine]

theorem balanced_worker {s : System} {a : ActorId} {i : Nat} {execution : Execution} {moved : Nat} {w w' : Worker}
    {g' : Shared} (fits : s.config.mailbox_config.capacity < 2 ^ 64) (sane : Sane s) (accepted : Accepted a s)
    (harmless : ∀ m, (a,m) ∈ s.shared.history.accepted → Harmless m) (inv : Balanced a s)
    (undisturbed : Undisturbed a s (.worker i execution moved)) (found : s.workers[i]? = some w)
    (moves : WorkerMove s.config s.shared w execution g' w') :
    Balanced a { s with shared := g', workers := s.workers.set i w' } := by
  have member := List.mem_of_getElem? found
  have balance := inv.balance
  have sums := sum_map_set (unreleased a) found w'
  have others : (∀ job, holding w' = some job → job.actor_id = a → Benign job) →
      ∀ other ∈ s.workers.set i w', ∀ job, holding other = some job → job.actor_id = a → Benign job := by
    intro own other listed
    rcases List.mem_or_eq_of_mem_set listed with old | rfl
    · exact inv.benign other old
    · exact own
  cases moves with
  | look free still =>
    have before : unreleased a w = 0 := by simp [unreleased,free]
    have after : unreleased a w' = 0 := by simp [unreleased,still]
    refine ⟨inv.active,inv.present,inv.alone,others (by simp [still]),?_⟩
    show stored a s.shared = onTheWay a s.clients s.shared (s.workers.set i w')
    unfold onTheWay at balance ⊢
    omega
  | @take _ lane task rest free head holds =>
    have before : unreleased a w = 0 := by simp [unreleased,free]
    have after : unreleased a w' = weight (fun _ => 1) a task := by
      rw [← weight_start]
      simp only [unreleased,holds]
    refine ⟨inv.active,inv.present,inv.alone,others ?_,?_⟩
    · intro job same _
      rw [holds] at same
      cases same
      exact ⟨rfl,by simp [Job.start],trivial⟩
    · have taken : queuedWeight (fun _ => 1) a
          ({ s.shared with injectors := s.shared.injectors.set lane rest }.log_taken task) + weight (fun _ => 1) a task =
          queuedWeight (fun _ => 1) a s.shared := queuedWeight_take _ a head rfl rfl
      have same : stored a ({ s.shared with injectors := s.shared.injectors.set lane rest }.log_taken task) =
        stored a s.shared := stored_congr rfl
      dsimp only
      rw [same]
      generalize { s.shared with injectors := s.shared.injectors.set lane rest }.log_taken task = g' at taken ⊢
      unfold onTheWay at balance ⊢
      omega
  | @work _ job _ holds steps =>
    have effect := step_effect steps
    have frame := effect_frame effect
    have queues := queuedWeight_congr (fun _ => 1) a frame.injectors frame.deques
    have goal : stored a g' + unreleased a w = stored a s.shared + unreleased a w' →
        stored a g' = onTheWay a s.clients g' (s.workers.set i w') := by
      intro moved
      unfold onTheWay at balance ⊢
      omega
    have present : (g'.registry.mailboxes.lookup a).isSome → (g'.registry.by_id.lookup a).isSome := by
      rw [frame.present,effect_present effect]
      exact inv.present
    by_cases mine : job.actor_id = a
    · subst mine
      -- A message whose slot is not released is stored, so the actor is registered.
      have occupied : 0 < pending job.stage → 0 < stored job.actor_id s.shared := by
        intro some
        have own := le_sum_map (unreleased job.actor_id) member
        have mine : unreleased job.actor_id w = unreleasedJob job := by simp [unreleased,holds]
        unfold unreleasedJob at mine
        unfold onTheWay at balance
        omega
      have registered : 0 < pending job.stage → (s.shared.registry.by_id.lookup job.actor_id).isSome := by
        intro some
        refine inv.present ?_
        have filled := occupied some
        unfold stored at filled
        split at filled
        · next found => simp [found]
        · cases filled
      have keeps := job_keeps fits sane.registry (inv.benign w member job holds rfl)
        (fun m inHand => harmless m (accepted.held w member job holds rfl m inHand)) inv.active registered occupied
        (fun m atExecute installed => undisturbed w job m found holds rfl atExecute installed) steps
      refine ⟨keeps.active,present,inv.alone,others (fun next goes _ => keeps.benign next goes),goal ?_⟩
      have balanced := keeps.balance
      have before : unreleased job.actor_id w = unreleasedJob job := by simp [unreleased,holds]
      have after : unreleased job.actor_id w' = ((holding w').map unreleasedJob).getD 0 := by
        unfold unreleased
        cases goes : holding w' with
        | none => rfl
        | some next =>
          rw [goes] at steps
          simp [(job_hand steps).1]
      omega
    · have away : ∀ next, holding w' = some next → next.actor_id ≠ a := by
        intro next goes
        rw [goes] at steps
        rw [(job_hand steps).1]
        exact mine
      refine ⟨?_,present,inv.alone,others (fun next goes target => absurd target (away next goes)),goal ?_⟩
      · rw [frame.states a (Ne.symm mine)]
        exact inv.active
      · have before : unreleased a w = 0 := by simp [unreleased,holds,mine]
        have after : unreleased a w' = 0 := by
          unfold unreleased
          cases goes : holding w' with
          | none => rfl
          | some next => simp [away next goes]
        rw [stored_congr (frame.mailboxes a (Ne.symm mine)),before,after]

/-- What an accepted push adds to the slots. -/
theorem stored_accept {config : MailboxConfig} (fits : config.capacity < 2 ^ 64) {g : Shared} {target : ActorId}
    {kind : SendKind} {m : Message} {mb mb' : Mailbox} (kept : Kept config g.registry)
    (found : g.registry.mailboxes.lookup target = some mb) (pushes : push_one kind mb m = some (mb',true)) (a : ActorId) :
    stored a (g.on_mailbox target (fun _ => mb')) = stored a g + if target = a then 1 else 0 := by
  obtain ⟨-,perm,-⟩ := push_one_sound fits (kept.sound _ _ found) pushes
  by_cases mine : target = a
  · subst mine
    have more := (perm rfl).length_eq
    simp only [List.length_cons,contents_length] at more
    simp [stored,Shared.on_mailbox,ActorRegistry.on_mailbox,found,more]
  · rw [stored_congr (stored_on_other (Ne.symm mine)),if_neg mine]
    rfl

theorem enter_undisturbed {a : ActorId} {s : System} {i : Nat} {call : Call} {admitted : Bool}
    (undisturbed : Undisturbed a s (.client i call admitted)) (found : s.clients[i]? = some .idle)
    (state : ActorState) (hands : meddles (Client.enter s.shared call).2 = some (a,state)) : Active state := by
  have may := undisturbed found
  cases call with
  | send | try_send => cases hands
  | send_batch target messages =>
    simp only [Client.enter] at hands
    split at hands <;> cases hands
  | kill id =>
    cases hands
    exact absurd rfl may
  | set_actor_state id state =>
    cases hands
    exact may rfl

theorem balanced_client {s : System} {a : ActorId} {i : Nat} {call : Call} {admitted : Bool} {c c' : Client}
    {g' : Shared} (fits : s.config.mailbox_config.capacity < 2 ^ 64) (sane : Sane s)
    (single : ∀ c ∈ s.clients, Single c) (inv : Balanced a s)
    (undisturbed : Undisturbed a s (.client i call admitted)) (found : s.clients[i]? = some c)
    (moves : ClientMove s.config s.shared i call c g' c') :
    Balanced a { s with shared := g', clients := s.clients.set i c' } := by
  have member := List.mem_of_getElem? found
  have balance := inv.balance
  have sums := sum_map_set (fun c => (pushedBy a c).length) found c'
  have others : (∀ state, meddles c' = some (a,state) → Active state) →
      ∀ other ∈ s.clients.set i c', ∀ state, meddles other = some (a,state) → Active state := by
    intro own other listed
    rcases List.mem_or_eq_of_mem_set listed with old | rfl
    · exact inv.alone other old
    · exact own
  have untouched : ∀ id, meddles c = some (id,.Stopped) → a ≠ id := by
    rintro id hands rfl
    have := inv.alone c member _ hands
    simp [Active] at this
  have goal : ∀ {queues slots}, queuedWeight (fun _ => 1) a g' = queues → stored a g' = slots →
      queues + (pushedBy a c').length + stored a s.shared =
        queuedWeight (fun _ => 1) a s.shared + (pushedBy a c).length + slots →
      stored a g' = onTheWay a (s.clients.set i c') g' s.workers := by
    rintro _ _ rfl rfl moved
    unfold onTheWay at balance ⊢
    omega
  cases moves with
  | enter =>
    have hands := enter_undisturbed undisturbed found
    have unpushed := enter_unpushed s.shared call a
    obtain ⟨next,same⟩ := enter_frame s.shared call
    rw [same] at goal ⊢
    refine ⟨inv.active,inv.present,others hands,inv.benign,
      goal (queuedWeight_congr _ a (g := s.shared) rfl rfl) (stored_congr (g := s.shared) rfl) ?_⟩
    rw [unpushed]
    simp [pushedBy]
  | look before after _ hands _ =>
    refine ⟨inv.active,inv.present,others ?_,inv.benign,goal rfl rfl (by rw [before,after])⟩
    intro state mine
    rcases hands with same | none
    · exact inv.alone c member state (same ▸ mine)
    · rw [none] at mine; cases mine
  | @accept kind target pushed remaining m mb mb' here pushes =>
    obtain ⟨more,-,free⟩ := pushing_next kind target pushed m remaining a
    have added := stored_accept fits sane.registry here pushes a
    refine ⟨inv.active,?_,others (by rw [free]; rintro _ ⟨⟩),inv.benign,
      goal (queuedWeight_congr _ a (g := s.shared) rfl rfl) added ?_⟩
    · intro some
      refine inv.present ?_
      rw [← on_mailbox_present s.shared target]
      exact some
    · rw [more]
      by_cases mine : target = a
      · simp only [pushedBy,mine,if_true,List.length_append,List.length_singleton]
        omega
      · simp [pushedBy,mine]
  | @refuse kind target pushed remaining m mb mb' here pushes =>
    obtain ⟨-,-,same⟩ := push_one_sound fits (sane.registry.sound _ _ here) pushes
    obtain ⟨rfl,rfl,-⟩ := same rfl
    obtain ⟨rfl,-⟩ := single _ member (by simp)
    have kept : ∀ k, (s.shared.on_mailbox target (fun _ => mb')).registry.mailboxes.lookup k =
        s.shared.registry.mailboxes.lookup k := by
      intro k
      simp only [Shared.on_mailbox,ActorRegistry.on_mailbox,Dict.lookup_modify]
      split
      · next mine =>
        subst mine
        rw [here]
        rfl
      · rfl
    refine ⟨inv.active,?_,others (by rintro _ ⟨⟩),inv.benign,
      goal (queuedWeight_congr _ a (g := s.shared) rfl rfl) (stored_congr (kept a)) (by simp [pushedBy])⟩
    simp only [kept]
    exact inv.present
  | @enqueue target first additional =>
    refine ⟨inv.active,inv.present,others (by rintro _ ⟨⟩),inv.benign,
      goal (queuedWeight_enqueue (fun _ => 1) a (g := s.shared) rfl rfl) (stored_congr (g := s.shared) rfl) ?_⟩
    by_cases mine : target = a
    · simp [pushedBy,weight,task_of,Task.messages,mine]
      omega
    · simp [pushedBy,weight,task_of,mine]
  | @set_state id state =>
    obtain ⟨same,-⟩ := set_state_mailboxes s.shared.registry id state
    have kept : (s.shared.set_state id state).registry.mailboxes = s.shared.registry.mailboxes := same
    refine ⟨?_,?_,others (by rintro _ ⟨⟩),inv.benign,goal (queuedWeight_congr _ a (g := s.shared) rfl rfl)
      (stored_congr (congrArg (AList.lookup a) kept)) (by simp [pushedBy])⟩
    · intro after lookup
      rw [Shared.set_state,get_state_set] at lookup
      split at lookup
      · next mine =>
        obtain ⟨_,_,rfl⟩ := Option.map_eq_some_iff.mp lookup
        exact inv.alone _ member state (by rw [mine]; rfl)
      · exact inv.active after lookup
    · rw [kept,Shared.set_state,present_set_state]
      exact inv.present
  | @kill id =>
    have other := untouched id rfl
    obtain ⟨same,-⟩ := set_state_mailboxes s.shared.registry id .Stopped
    have kept : (s.shared.set_state id .Stopped).registry.mailboxes = s.shared.registry.mailboxes := same
    refine ⟨?_,?_,others ?_,inv.benign,goal (queuedWeight_congr _ a (g := s.shared) rfl rfl)
      (stored_congr (congrArg (AList.lookup a) kept)) (by simp [pushedBy])⟩
    · rw [Shared.set_state,get_state_set,if_neg other]
      exact inv.active
    · rw [kept,Shared.set_state,present_set_state]
      exact inv.present
    · rintro state ⟨⟩
      exact absurd rfl other
  | @clear id =>
    have other := untouched id rfl
    have kept := stored_on_other (g := s.shared) (f := Mailbox.clear) other
    refine ⟨inv.active,?_,others ?_,inv.benign,
      goal (queuedWeight_congr _ a (g := s.shared) rfl rfl) (stored_congr kept) (by simp [pushedBy])⟩
    · rw [kept]; exact inv.present
    · rintro state ⟨⟩
      exact absurd rfl other
  | @unregister id =>
    have other := untouched id rfl
    have mailboxes := unregister_mailboxes s.shared.registry id
    have entry := unregister_other s.shared.registry other
    refine ⟨?_,?_,others (by rintro _ ⟨⟩),inv.benign,goal (queuedWeight_congr _ a (g := s.shared) rfl rfl)
      (stored_congr (g := s.shared) (congrArg (AList.lookup a) mailboxes)) (by simp [pushedBy])⟩
    · simp only [ActorRegistry.get_state,entry]
      exact inv.active
    · simp only [mailboxes,entry]
      exact inv.present

theorem balanced_init (config : SchedulerConfig) (n : Nat) (a : ActorId) : Balanced a (.init config n) := by
  refine ⟨?_,?_,?_,?_,?_⟩
  · intro state found; cases found
  · intro some; cases some
  · intro c member state hands
    rw [List.eq_of_mem_replicate member] at hands
    cases hands
  · intro w member; cases member
  · simp [stored,onTheWay,System.init,ActorRegistry.with_mailbox_config,queuedWeight,tasks,pushedBy]

theorem balanced_step {s s' : System} {label : Label} {a : ActorId}
    (fits : s.config.mailbox_config.capacity < 2 ^ 64) (sane : Sane s) (single : ∀ c ∈ s.clients, Single c)
    (accepted : Accepted a s) (harmless : ∀ m, (a,m) ∈ s.shared.history.accepted → Harmless m) (inv : Balanced a s)
    (undisturbed : Undisturbed a s label) (move : Move s label s') : Balanced a s' := by
  have balance := inv.balance
  cases move with
  | worker found moves => exact balanced_worker fits sane accepted harmless inv undisturbed found moves
  | client found moves => exact balanced_client fits sane single inv undisturbed found moves
  | @drop_send i kind target pushed remaining message found =>
    have other := undisturbed kind target pushed message remaining found
    have sums := sum_map_set (fun c => (pushedBy a c).length) found .idle
    refine ⟨inv.active,inv.present,?_,inv.benign,?_⟩
    · intro c member
      rcases List.mem_or_eq_of_mem_set member with old | rfl
      · exact inv.alone c old
      · rintro _ ⟨⟩
    · have none : pushedBy a (.push kind target pushed message remaining) = [] := by simp [pushedBy,other]
      have idle : pushedBy a .idle = [] := rfl
      simp only [none,idle] at sums
      unfold onTheWay at balance ⊢
      dsimp only
      omega
  | @spawn id name fresh =>
    rcases register_cases s.shared.registry id name with same | ⟨absent,by_name,added⟩
    · rw [same]
      exact inv
    · have lookups : ∀ k, ((s.shared.registry.register_named id name).1).by_id.lookup k =
          (if k = id then some { name } else s.shared.registry.by_id.lookup k) ∧
          ((s.shared.registry.register_named id name).1).mailboxes.lookup k =
            if k = id then some (.new id s.shared.registry.mailbox_config) else s.shared.registry.mailboxes.lookup k := by
        intro k
        simp only [added,Dict.lookup_insert_ite,and_self]
      refine ⟨?_,?_,inv.alone,inv.benign,?_⟩
      · intro state found
        simp only [ActorRegistry.get_state,lookups] at found
        split at found
        · cases found
          exact .inr rfl
        · exact inv.active state found
      · simp only [lookups]
        split
        · exact fun _ => rfl
        · exact inv.present
      · have kept : stored a { s.shared with registry := (s.shared.registry.register_named id name).1 } =
            stored a s.shared := by
          unfold stored
          simp only [lookups]
          split
          · next mine =>
            split at mine
            · next same =>
              cases mine
              rw [same,fresh]
              rfl
            · simp [mine]
          · next none =>
            split at none
            · cases none
            · simp [none]
        have queues : queuedWeight (fun _ => 1) a
            { s.shared with registry := (s.shared.registry.register_named id name).1 } =
            queuedWeight (fun _ => 1) a s.shared := queuedWeight_congr _ a rfl rfl
        unfold onTheWay at balance ⊢
        dsimp only
        rw [kept,queues,balance]
  | @receive id =>
    have other : a ≠ id := fun same => undisturbed same.symm
    have kept := stored_on_other (g := s.shared) (f := fun mb => mb.try_recv.1) other
    refine ⟨inv.active,?_,inv.alone,inv.benign,?_⟩
    · simp only [kept]; exact inv.present
    · have queues : queuedWeight (fun _ => 1) a (s.shared.on_mailbox id (fun mb => mb.try_recv.1)) =
          queuedWeight (fun _ => 1) a s.shared := queuedWeight_congr _ a rfl rfl
      unfold onTheWay at balance ⊢
      dsimp only
      rw [stored_congr kept,queues,balance]
  | @start_worker worker_id w free =>
    refine ⟨inv.active,inv.present,inv.alone,?_,?_⟩
    · intro other member job holds
      rcases List.mem_append.mp member with old | new
      · exact inv.benign other old job holds
      · rw [List.mem_singleton.mp new,free] at holds
        cases holds
    · have queues : tasks { s.shared with
          deques := s.shared.deques ++ [[]]
          stealers := s.shared.stealers ++ [(worker_id,s.shared.deques.length)] } = tasks s.shared := by
        simp [tasks]
      have idle : unreleased a w = 0 := by simp [unreleased,free]
      unfold onTheWay queuedWeight at balance ⊢
      simp only [queues,List.map_append,List.map_cons,List.map_nil,List.sum_append,List.sum_cons,List.sum_nil,idle,
        Nat.add_zero]
      exact balance
  | set_running => exact ⟨inv.active,inv.present,inv.alone,inv.benign,inv.balance⟩

/-- Every run that leaves the actor undisturbed keeps the account. -/
theorem balanced_reach {config : SchedulerConfig} (fits : config.mailbox_config.capacity < 2 ^ 64) {n : Nat}
    {a : ActorId} {s : System} (reached : Reach System.step (Undisturbed a) (.init config n) s)
    (harmless : ∀ m, (a,m) ∈ s.shared.history.accepted → Harmless m) : Balanced a s := by
  induction reached with
  | start => exact balanced_init config n a
  | next before undisturbed stepped ih =>
    obtain ⟨same,sane⟩ := sane_reach fits before
    have move := (step_move sane.toNoLocal stepped).1
    -- What was accepted before the step is still accepted after it.
    have earlier := fun m member => harmless m (accepted_grows move _ member)
    exact balanced_step (by rw [same]; exact fits) sane (single_reach before) (accepted_reach fits a before) earlier
      (ih earlier) undisturbed move

/-! ## Slot conservation -/

/-- Whether a client is inside a send to an actor. -/
def sending (a : ActorId) : Client → Prop
  | .admit_message _ target _ | .get_mailbox _ target _ | .get_state _ target _ | .push _ target .. | .enqueue target .. =>
    target = a
  | _ => False

/-- No send to the actor is in progress, and no task of it is queued or being
    processed. -/
structure Quiet (a : ActorId) (s : System) : Prop where
  unsent : ∀ c ∈ s.clients, ¬sending a c
  unqueued : ∀ task ∈ tasks s.shared, task.actor_id ≠ a
  unheld : ∀ w ∈ s.workers, ∀ job, holding w = some job → job.actor_id ≠ a

/-- Only a send to the actor has pushed messages for it. -/
theorem Quiet.unpushed {a : ActorId} {s : System} (quiet : Quiet a s) {c : Client} (member : c ∈ s.clients) :
    pushedBy a c = [] := by
  have other := quiet.unsent c member
  cases c with
  | push _ target | enqueue target =>
    have apart : target ≠ a := other
    simp [pushedBy,apart]
  | _ => rfl

theorem quiet_account {a : ActorId} {s : System} (quiet : Quiet a s) : onTheWay a s.clients s.shared s.workers = 0 := by
  have sends : (s.clients.map (fun c => (pushedBy a c).length)).sum = 0 := by
    refine sum_map_eq_zero _ _ (fun c member => ?_)
    rw [quiet.unpushed member,List.length_nil]
  have queues : queuedWeight (fun _ => 1) a s.shared = 0 := by
    refine sum_map_eq_zero _ _ (fun task member => ?_)
    simp [weight,quiet.unqueued task member]
  have workers : (s.workers.map (unreleased a)).sum = 0 := by
    refine sum_map_eq_zero _ _ (fun w member => ?_)
    unfold unreleased
    split
    · next job holds => simp [quiet.unheld w member job holds]
    · rfl
  simp [onTheWay,sends,queues,workers]

/-- The mailbox holds exactly the messages on their way, and nothing is left in
    it once there are none. -/
theorem slots_conserved {config : SchedulerConfig} (fits : config.mailbox_config.capacity < 2 ^ 64) {n : Nat}
    {a : ActorId} {s : System} (reached : Reach System.step (Undisturbed a) (.init config n) s)
    (harmless : ∀ m, (a,m) ∈ s.shared.history.accepted → Harmless m) {mb : Mailbox}
    (registered : s.shared.registry.get_mailbox a = some mb) :
    mb.len = (contents mb).length ∧ (contents mb).length = onTheWay a s.clients s.shared s.workers ∧
      (Quiet a s → contents mb = [] ∧ mb.permits = config.mailbox_config.capacity) := by
  obtain ⟨same,sane⟩ := sane_reach fits reached
  have account := (balanced_reach fits reached harmless).balance
  have found : s.shared.registry.mailboxes.lookup a = some mb := by
    unfold ActorRegistry.get_mailbox at registered
    split at registered
    · exact registered
    · cases registered
  have sound := sane.registry.sound a mb found
  rw [same] at sound
  have stores : stored a s.shared = (contents mb).length := by simp [stored,found,contents_length]
  rw [stores] at account
  refine ⟨?_,account,fun quiet => ?_⟩
  · rw [contents_length]
    exact sound.size
  · rw [quiet_account quiet] at account
    have permits := sound.permits
    rw [← contents_length,account] at permits
    exact ⟨List.length_eq_zero_iff.mp account,permits⟩

/-! ## Runs without disturbance -/

/-- The labels of ordinary work, which disturb no actor in any state. -/
def calm : Label → Bool
  | .worker _ (.returns .Success) _ | .spawn .. | .start_worker _ | .set_running _ => true
  | .client _ (.send ..) _ | .client _ (.send_batch ..) _ | .client _ (.try_send ..) _ => true
  | _ => false

theorem calm_undisturbed (a : ActorId) {labels : List Label} (all : ∀ label ∈ labels, calm label = true) :
    ∀ label ∈ labels, ∀ s, Undisturbed a s label := by
  intro label member s
  have calm := all label member
  unfold Slots.calm at calm
  split at calm
  · exact fun _ _ _ _ _ _ _ _ => .inl rfl
  · trivial
  · trivial
  · trivial
  · exact fun _ => trivial
  · exact fun _ => trivial
  · exact fun _ => trivial
  · cases calm

/-- Accepted messages are harmless when their payloads are. -/
theorem harmless_custom {accepted : List (ActorId × Message)} {payloads : List MessagePayload}
    (same : accepted.map (·.2.payload) = payloads)
    (harmless : ∀ payload ∈ payloads, payload ≠ .Stop ∧ payload ≠ .Signal .Pause) (a : ActorId) :
    ∀ m, (a,m) ∈ accepted → Harmless m := by
  subst same
  exact fun m member => harmless _ (List.mem_map.mpr ⟨_,member,rfl⟩)

/-- One worker and two clients: a batch of two is being processed while a third
    message is pushed. -/
def threeOnTheWay : List Label :=
  let m : Message := { sender := none, payload := .Custom [], priority := .Normal }
  let batch : Label := .client 0 (.send_batch ⟨1⟩ [m,m]) true
  let work : Label := .worker 0 (.returns .Success) 0
  let third : Label := .client 1 (.send ⟨1⟩ m) true
  [.spawn ⟨1⟩ none,.set_running true,.start_worker 0] ++ List.replicate 7 batch ++ List.replicate 9 work ++
    List.replicate 5 third

theorem slots_conserved_mid_flight : ∃ s mb, Reach System.step (Undisturbed ⟨1⟩)
    (.init { mailbox_config := { capacity := 3 } } 2) s ∧ s.shared.registry.get_mailbox ⟨1⟩ = some mb ∧ mb.len = 3 ∧
      onTheWay ⟨1⟩ s.clients s.shared s.workers = 3 := by
  have seen : (run System.step (.init { mailbox_config := { capacity := 3 } } 2) threeOnTheWay).map
      (fun s => (s.shared.registry.get_mailbox ⟨1⟩).map (fun mb => (mb.len,s.shared.history.accepted.map (·.2.payload)))) =
      some (some (3,[.Custom [],.Custom [],.Custom []])) := by decide +kernel
  obtain ⟨s,runs,observed⟩ := Option.map_eq_some_iff.mp seen
  obtain ⟨mb,registered,same⟩ := Option.map_eq_some_iff.mp observed
  simp only [Prod.mk.injEq] at same
  have reached := reach_run .start (calm_undisturbed ⟨1⟩ (by decide)) runs
  have harmless := harmless_custom same.2 (by decide) ⟨1⟩
  have conserved := slots_conserved (by decide) reached harmless registered
  exact ⟨s,mb,reached,registered,same.1,by rw [← conserved.2.1,← conserved.1]; exact same.1⟩

end ActorKit.Slots
