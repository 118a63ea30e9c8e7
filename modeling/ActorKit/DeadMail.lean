import ActorKit.ExactlyOnce

/-!
# The mail of dead actors

What is left in the mailbox of an actor that message processing has failed or
stopped. A failure clears the mailbox; a `Stop` only releases its own slot, and
the tasks behind it are dropped without releasing theirs. `try_send` does not
look at the state, and a `send` that waits for a permit looked before it waited.
-/

namespace ActorKit.DeadMail
open ActorKit.mailbox ActorKit.registry ActorKit.queue ActorKit.scheduler ActorKit.MailboxCalls ActorKit.Moves
open ActorKit.Inventory ActorKit.Transition
open ActorKit.Slots (stored stored_congr stored_on_other get_mailbox_of)
open ActorKit.ExactlyOnce (sets job_state started sending_payload atRest)

/-- Failed or stopped. -/
def dead (g : Shared) (id : ActorId) : Bool :=
  match g.registry.get_state id with
  | some .Failed | some .Stopped => true
  | some .Creating | some .Running | some .Suspended | none => false

/-- No task is being processed. -/
def Between (s : System) : Prop := ∀ w ∈ s.workers, holding w = none

/-- The calls of the clients in these runs. -/
def isSend : Call → Bool
  | .send .. | .send_batch .. | .try_send .. => true
  | .kill _ | .set_actor_state .. => false

/-- Whole tasks are processed one at a time, and clients send in between. -/
def InTurn (s : System) : Label → Prop
  | .worker i _ _ => ∀ w ∈ s.workers.eraseIdx i, holding w = none
  | .client i call _ => Between s ∧ (s.clients[i]? = some .idle → isSend call = true)
  | .drop_send _ => Between s
  | .receive _ => False
  | .spawn .. | .start_worker _ | .set_running _ => True

/-- Between two tasks a dead actor without a queued task has an empty mailbox
    and all its permits. -/
def NoMail (s : System) : Prop :=
  Between s → ∀ id mb, dead s.shared id = true → (∀ task ∈ tasks s.shared, task.actor_id ≠ id) →
    s.shared.registry.get_mailbox id = some mb →
    contents mb = [] ∧ mb.permits = s.config.mailbox_config.capacity

instance (s : System) : Decidable (Between s) := inferInstanceAs (Decidable (∀ w ∈ s.workers, holding w = none))

instance (s : System) : (label : Label) → Decidable (InTurn s label)
  | .worker .. => inferInstanceAs (Decidable (∀ w ∈ _, holding w = none))
  | .client .. => inferInstanceAs (Decidable (Between _ ∧ (_ → _)))
  | .drop_send _ => inferInstanceAs (Decidable (Between _))
  | .receive _ => .isFalse id
  | .spawn .. | .start_worker _ | .set_running _ => .isTrue trivial

/-- The target of a send that returns `Ok` with this step. -/
def returnsOk (s : System) : Label → Option ActorId
  | .client i call _ => match s.clients[i]? with
    | some (.enqueue target _ _) => some target
    | some .idle => match call with
      | .send_batch target [] => some target
      | _ => none
    | _ => none
  | _ => none

/-- No send returns `Ok` for a dead actor with this step. -/
def Refuses (s : System) (label : Label) : Prop := ∀ id, returnsOk s label = some id → dead s.shared id = false

/-- A send to the actor that has passed the check of its state. -/
def sendsTo (id : ActorId) : Client → Bool
  | .push _ target _ _ _ | .enqueue target _ _ => target = id
  | _ => false

/-- The next call of a job ends its actor and leaves the mailbox alone. -/
def stops (stage : Stage) : Bool :=
  match stage with
  | .set_state state => state = .Failed ∨ state = .Stopped
  | .control m => state_change m.payload = some .Stopped
  | _ => false

/-- The next call of a job ends its actor, and a later one clears the mailbox. -/
def fails : Stage → Bool
  | .fail | .panic => true
  | _ => false

/-- The target of a send that does not look at the state: a `try_send`, or a
    batch of nothing. -/
def unchecked (s : System) : Label → Option ActorId
  | .client i call _ => match s.clients[i]? with
    | some (.get_mailbox .try_send target _) => some target
    | some .idle => match call with
      | .send_batch target [] => some target
      | _ => none
    | _ => none
  | _ => none

/-- The job whose next call ends its actor. -/
def ending (s : System) : Label → Option Job
  | .worker i _ _ => ((s.workers[i]?).bind holding).filter (fun job => stops job.stage || fails job.stage)
  | _ => none

/-- No unchecked send goes to a dead actor, an actor dies when no send to it is
    under way, and one that is stopped outside a drain has at most the `Stop`
    itself in its mailbox. -/
structure Careful (s : System) (label : Label) : Prop where
  alive : ∀ id ∈ unchecked s label, dead s.shared id = false
  unsent : ∀ job ∈ ending s label, ∀ c ∈ s.clients, sendsTo job.actor_id c = false
  last : ∀ job ∈ ending s label, stops job.stage = true → job.depth = 0 → stored job.actor_id s.shared ≤ 1

instance (s : System) (label : Label) : Decidable (Careful s label) :=
  decidable_of_iff ((∀ id ∈ unchecked s label, dead s.shared id = false) ∧
      (∀ job ∈ ending s label, ∀ c ∈ s.clients, sendsTo job.actor_id c = false) ∧
      ∀ job ∈ ending s label, stops job.stage = true → job.depth = 0 → stored job.actor_id s.shared ≤ 1)
    ⟨fun all => ⟨all.1,all.2.1,all.2.2⟩,fun careful => ⟨careful.alive,careful.unsent,careful.last⟩⟩

/-! ## One call of a job -/

/-- What a job may leave stored for its actor, if the actor is dead. -/
def Leaves (gone : Bool) (left : Nat) (job : Job) : Prop :=
  match job.stage with
  | .execute _ | .set_state _ | .control _ | .requeue _ | .requeue_push _ => gone = false
  | .get_state _ | .control_check => gone = true → job.depth = 0 → left = 0
  | .record | .get_mailbox | .release | .control_mailbox | .control_release =>
    gone = true → job.depth = 0 → left ≤ 1
  | .check => gone = true → left = 0
  -- A drain goes on until the mailbox is empty, and a failure clears it.
  | .drain | .drain_empty | .drain_pop | .fail | .fail_mailbox | .fail_clear | .panic | .panic_mailbox | .panic_clear =>
    True

/-- What is stored after a call, for the job that goes on or for nobody. -/
def After (gone : Bool) (left : Nat) : Option Job → Prop
  | some job => Leaves gone left job
  | none => gone = true → left = 0

theorem finish_after {gone : Bool} {left : Nat} {job : Job} (done : gone = true → job.depth = 0 → left = 0) :
    After gone left job.finish := by
  unfold Job.finish
  cases depth : job.depth with
  | succ depth => exact trivial
  | zero =>
    by_cases batch : job.batch = true
    · simp only [batch,if_true]
      exact fun gone => done gone depth
    · simp only [batch,Bool.false_eq_true,if_false]
      exact fun gone => done gone depth

/-- Who is dead after a state was written was given a dead state. -/
theorem dead_written {g g' : Shared} {id : ActorId} {state : ActorState}
    (written : g'.registry.get_state id = (g.registry.get_state id).map (fun _ => state))
    (gone : dead g' id = true) : state = .Failed ∨ state = .Stopped := by
  unfold dead at gone
  rw [written] at gone
  cases found : g.registry.get_state id with
  | none => simp [found] at gone
  | some before =>
    cases state with
    | Failed => exact .inl rfl
    | Stopped => exact .inr rfl
    | Creating | Running | Suspended => simp [found] at gone

theorem get_state_written (g : Shared) (id : ActorId) (state : ActorState) :
    (g.set_state id state).registry.get_state id = (g.registry.get_state id).map (fun _ => state) := by
  rw [Shared.set_state,get_state_set,if_pos rfl]

theorem stored_set_state (g : Shared) (id a : ActorId) (state : ActorState) :
    stored a (g.set_state id state) = stored a g :=
  stored_congr (by rw [Shared.set_state,(set_state_mailboxes g.registry id state).1])

theorem dead_registered {g : Shared} {id : ActorId} (gone : dead g id = true) :
    (g.registry.by_id.lookup id).isSome = true := by
  unfold dead ActorRegistry.get_state at gone
  cases found : g.registry.by_id.lookup id with
  | none => simp [found] at gone
  | some entry => rfl

/-- A dead actor is registered, so its mailbox is found. -/
theorem dead_mailbox {config : MailboxConfig} {g : Shared} (kept : Kept config g.registry) {id : ActorId}
    (none : g.registry.get_mailbox id = none) : dead g id = false := by
  by_contra gone
  obtain ⟨mb,found⟩ := get_mailbox_of kept (dead_registered (by simpa using gone))
  rw [none] at found
  cases found

/-- A receive leaves one message fewer. -/
theorem stored_received {config : MailboxConfig} (fits : config.capacity < 2 ^ 64) {g : Shared}
    (kept : Kept config g.registry) (id : ActorId) :
    stored id (g.on_mailbox id (fun mb => mb.try_recv.1)) = stored id g - 1 := by
  unfold stored
  simp only [Shared.on_mailbox,ActorRegistry.on_mailbox,Dict.lookup_modify,if_true]
  cases found : g.registry.mailboxes.lookup id with
  | none => rfl
  | some mb =>
    simp only [Option.map_some]
    by_cases empty : contents mb = []
    · rw [try_recv_empty empty,← contents_length,empty]
      rfl
    · obtain ⟨after,first,taken,-,split⟩ := try_recv_takes fits (kept.sound id mb found) empty
      rw [taken,← contents_length,← contents_length,split]
      simp

theorem stored_cleared {config : MailboxConfig} (fits : config.capacity < 2 ^ 64) {g : Shared}
    (kept : Kept config g.registry) (id : ActorId) : stored id (g.on_mailbox id Mailbox.clear) = 0 := by
  unfold stored
  simp only [Shared.on_mailbox,ActorRegistry.on_mailbox,Dict.lookup_modify,if_true]
  cases found : g.registry.mailboxes.lookup id with
  | none => rfl
  | some mb =>
    simp only [Option.map_some]
    rw [← contents_length,(clear_sound fits (kept.sound id mb found)).2]
    rfl

theorem leaves_alive (left : Nat) (job : Job) : Leaves false left job := by
  unfold Leaves
  split
  all_goals first | trivial | (intro gone; cases gone)

/-- A job of a live actor may leave anything. -/
theorem alive_after {g : Shared} {id : ActorId} {left : Nat} {next : Option Job} (alive : dead g id = false) :
    After (dead g id) left next := by
  rw [alive]
  cases next with
  | none => exact nofun
  | some job => exact leaves_alive left job

/-- A mailbox that is found empty stores nothing. -/
theorem stored_empty {config : SchedulerConfig} {g : Shared} (kept : Kept config.mailbox_config g.registry) {a : ActorId}
    {mb : Mailbox} (found : g.registry.mailboxes.lookup a = some mb) (empty : mb.is_empty = true) : stored a g = 0 := by
  have size := (kept.sound a mb found).size
  simp only [Mailbox.is_empty,Mailbox.len,beq_iff_eq] at empty
  simp only [stored,found]
  omega

/-- A mailbox from which nothing can be taken stores nothing. -/
theorem stored_drained {config : SchedulerConfig} (fits : config.mailbox_config.capacity < 2 ^ 64) {g : Shared}
    (kept : Kept config.mailbox_config g.registry) {a : ActorId} {mb : Mailbox}
    (found : g.registry.mailboxes.lookup a = some mb) (nothing : mb.try_recv.2 = none) : stored a g = 0 := by
  simp only [stored,found]
  rw [← contents_length]
  by_contra some
  obtain ⟨after,first,taken,-⟩ := try_recv_takes fits (kept.sound a mb found) (fun empty => some (by rw [empty]; rfl))
  rw [taken] at nothing
  cases nothing

theorem job_after {config : SchedulerConfig} (fits : config.mailbox_config.capacity < 2 ^ 64) {g g' : Shared} {job : Job}
    {next : Option Job} {execution : Execution} (kept : Kept config.mailbox_config g.registry)
    (leaves : Leaves (dead g job.actor_id) (stored job.actor_id g) job)
    (last : stops job.stage = true → job.depth = 0 → stored job.actor_id g ≤ 1)
    (steps : job.step config g execution = (g',next)) :
    After (dead g' job.actor_id) (stored job.actor_id g') next := by
  obtain ⟨id,batch,rest,depth,stage⟩ := job
  dsimp only at leaves last ⊢
  have recorded : dead { g with registry := g.registry.record_processed id } id = dead g id := by
    unfold dead
    simp [ActorRegistry.record_processed,ActorRegistry.get_state,Function.comp_def]
  have lives : ∀ {state : ActorState}, state ≠ .Failed → state ≠ .Stopped →
      g.registry.get_state id = some state → dead g id = false := by
    intro state working running found
    cases state <;> simp_all [dead]
  cases job_move steps with
  | awake active =>
    rcases active with found | found <;> exact alive_after (lives (by simp) (by simp) found)
  | asleep_control asleep => exact alive_after (lives (by simp) (by simp) asleep)
  | @asleep_requeue m asleep =>
    have alive : dead (g.log_requeued id m) id = false := lives (by simp) (by simp) asleep
    exact alive_after alive
  | absent => exact finish_after leaves
  | handled | fails | panics => exact alive_after (g := g.log_executed id _) leaves
  | assigns =>
    intro gone shallow
    rw [stored_set_state]
    exact last (decide_eq_true (dead_written (get_state_written ..) gone)) shallow
  | records =>
    intro gone shallow
    rw [recorded] at gone
    exact leaves gone shallow
  | boxed | control_boxed => exact leaves
  | unboxed missing | fail_unboxed missing | control_unboxed missing | drain_unboxed missing | panic_unboxed missing =>
    exact alive_after (dead_mailbox kept missing)
  | releases =>
    refine finish_after (fun gone shallow => ?_)
    have few := leaves gone shallow
    rw [stored_received fits kept]
    omega
  | fail_clears => exact finish_after (fun _ _ => stored_cleared fits kept id)
  | @control_assigns m state changes =>
    intro gone shallow
    rw [stored_set_state]
    rcases dead_written (get_state_written ..) gone with rfl | rfl
    · cases payload : m.payload with
      | Signal signal => cases signal <;> simp [payload,state_change] at changes
      | _ => simp [payload,state_change] at changes
    · exact last (by simp [stops,changes]) shallow
  | control_ignored => exact alive_after leaves
  | control_releases =>
    intro gone shallow
    have few := leaves gone shallow
    rw [stored_received fits kept]
    omega
  | unwoken => exact finish_after leaves
  | drain_ends nothing =>
    refine finish_after (fun _ _ => ?_)
    cases found : g.registry.mailboxes.lookup id with
    | none => simp [stored,found]
    | some mb => exact stored_empty kept found (nothing mb found)
  | pops =>
    intro _ deep
    cases deep
  | pop_ends nothing =>
    refine finish_after (fun _ _ => ?_)
    cases found : g.registry.mailboxes.lookup id with
    | none => simp [stored,found]
    | some mb => exact stored_drained fits kept found (nothing mb found)
  | requeue_boxed | requeue_unboxed => exact alive_after leaves
  | @requeue_pushes m => exact alive_after (g := g.on_mailbox id (fun mb => (mb.try_send m).1)) leaves
  | batch_abandoned | batch_done => exact leaves
  | batch_next viable =>
    have alive : dead g id = false := by
      unfold dead
      split
      · next failed => exact absurd failed viable.1
      · next stopped => exact absurd stopped viable.2
      all_goals rfl
    exact alive_after alive
  | panic_clears => exact fun _ => stored_cleared fits kept id
  | _ => trivial

/-- Only the calls that the runs are careful about end an actor. -/
theorem job_ends {config : SchedulerConfig} {g g' : Shared} {job : Job} {next : Option Job} {execution : Execution}
    (steps : job.step config g execution = (g',next)) (alive : dead g job.actor_id = false)
    (gone : dead g' job.actor_id = true) : stops job.stage = true ∨ fails job.stage = true := by
  rcases job_state steps with same | ⟨state,set,changed⟩
  · unfold dead at alive gone
    rw [same,alive] at gone
    cases gone
  · have ends := dead_written changed gone
    obtain ⟨id,batch,rest,depth,stage⟩ := job
    cases stage with
    | set_state target =>
      cases set
      exact .inl (decide_eq_true ends)
    | control m =>
      have changes : state_change m.payload = some state := set
      rcases ends with rfl | rfl
      · cases payload : m.payload with
        | Signal signal => cases signal <;> simp [payload,state_change] at changes
        | _ => simp [payload,state_change] at changes
      · exact .inl (by simp [stops,changes])
    | fail | panic => exact .inr rfl
    | _ => cases set

/-! ## One step of the system -/

/-- What holds in every careful run. -/
structure Tidy (s : System) : Prop where
  /-- A dead actor nobody works on has nothing stored. -/
  settled : ∀ id, dead s.shared id = true → (∀ w ∈ s.workers, ∀ job, holding w = some job → job.actor_id ≠ id) →
    stored id s.shared = 0
  leaves : ∀ w ∈ s.workers, ∀ job, holding w = some job →
    Leaves (dead s.shared job.actor_id) (stored job.actor_id s.shared) job
  senders : ∀ id, ∀ c ∈ s.clients, sendsTo id c = true → dead s.shared id = false
  hands : ∀ c ∈ s.clients, meddles c = none

theorem dead_congr {g g' : Shared} {id : ActorId} (same : g'.registry.get_state id = g.registry.get_state id) :
    dead g' id = dead g id := by
  unfold dead
  rw [same]

/-- With everybody else idle, the worker that steps is the only one at work. -/
theorem idle_others {workers : List Worker} {i : Nat} {w w' : Worker} (found : workers[i]? = some w)
    (idle : ∀ v ∈ workers.eraseIdx i, holding v = none) {v : Worker} (listed : v ∈ workers.set i w') :
    holding v = none ∨ v = w' := by
  obtain ⟨j,here⟩ := List.getElem?_of_mem listed
  by_cases own : j = i
  · subst own
    rw [List.getElem?_set_self (List.getElem?_eq_some_iff.mp found).1] at here
    exact .inr (Option.some.inj here).symm
  · rw [List.getElem?_set_ne (Ne.symm own)] at here
    exact .inl (idle v (List.mem_eraseIdx_iff_getElem?.mpr ⟨j,own,here⟩))

theorem tidy_worker {s : System} {i : Nat} {execution : Execution} {moved : Nat} {w w' : Worker} {g' : Shared}
    (fits : s.config.mailbox_config.capacity < 2 ^ 64) (sane : Sane s) (inv : Tidy s)
    (turn : InTurn s (.worker i execution moved)) (careful : Careful s (.worker i execution moved))
    (found : s.workers[i]? = some w) (moves : WorkerMove s.config s.shared w execution g' w') :
    Tidy { s with shared := g', workers := s.workers.set i w' } := by
  have member := List.mem_of_getElem? found
  have after : w' ∈ s.workers.set i w' := List.mem_set (List.getElem?_eq_some_iff.mp found).1 w'
  -- Before the step, too, only this worker can be at work.
  have before : ∀ v ∈ s.workers, holding v = none ∨ v = w := by
    intro v listed
    obtain ⟨j,here⟩ := List.getElem?_of_mem listed
    by_cases own : j = i
    · subst own
      rw [found] at here
      exact .inr (Option.some.inj here).symm
    · exact .inl (turn v (List.mem_eraseIdx_iff_getElem?.mpr ⟨j,own,here⟩))
  have unheld : holding w = none → ∀ id, ∀ v ∈ s.workers, ∀ job, holding v = some job → job.actor_id ≠ id := by
    intro free id v listed job holds
    rcases before v listed with none | rfl
    · rw [none] at holds; cases holds
    · rw [free] at holds; cases holds
  cases moves with
  | look free still =>
    refine ⟨fun id gone _ => inv.settled id gone (unheld free id),?_,inv.senders,inv.hands⟩
    intro v listed job holds
    rcases idle_others found turn listed with none | rfl
    · rw [none] at holds; cases holds
    · rw [still] at holds; cases holds
  | @take _ lane task rest free head holds pops =>
    refine ⟨fun id gone _ => inv.settled id gone (unheld free id),?_,inv.senders,inv.hands⟩
    intro v listed job same
    rcases idle_others found turn listed with none | rfl
    · rw [none] at same; cases same
    · rw [holds] at same
      cases same
      exact fun gone _ => inv.settled _ gone (unheld free _)
  | @work _ job _ holds steps =>
    have frame := effect_frame (step_effect steps)
    have ends : stops job.stage = true ∨ fails job.stage = true → ending s (.worker i execution moved) = some job := by
      intro either
      simpa [ending,found,holds] using either
    have left := job_after fits sane.registry (inv.leaves w member job holds)
      (fun stop => careful.last job (ends (.inl stop)) stop) steps
    have actor : ∀ job', holding w' = some job' → job'.actor_id = job.actor_id := by
      intro job' next
      rw [next] at steps
      exact (job_hand steps).1
    refine ⟨?_,?_,?_,inv.hands⟩
    · intro id gone unworked
      by_cases mine : id = job.actor_id
      · subst mine
        cases next : holding w' with
        | none =>
          rw [next] at left
          exact left gone
        | some job' => exact absurd (actor job' next) (unworked w' after job' next)
      · show stored id g' = 0
        rw [stored_congr (frame.mailboxes id mine)]
        refine inv.settled id ((dead_congr (frame.states id mine)).symm.trans gone) ?_
        intro v listed other busy
        rcases before v listed with none | rfl
        · rw [none] at busy; cases busy
        · rw [holds] at busy
          cases busy
          exact Ne.symm mine
    · intro v listed job' same
      rcases idle_others found turn listed with none | rfl
      · rw [none] at same; cases same
      · rw [same] at left
        rw [actor job' same]
        exact left
    · intro id c listed sends
      have alive := inv.senders id c listed sends
      show dead g' id = false
      by_cases mine : id = job.actor_id
      · subst mine
        by_contra gone
        rw [careful.unsent job (ends (job_ends steps alive (by simpa using gone))) c listed] at sends
        cases sends
      · rw [dead_congr (frame.states id mine)]
        exact alive

/-- A send passes the check of the state only for an actor that is alive. -/
theorem client_sends {config : SchedulerConfig} {g g' : Shared} {i : Nat} {call : Call} {admitted : Bool} {c c' : Client}
    {id : ActorId} (steps : c.step config g i call admitted = some (g',c')) (sends : sendsTo id c' = true) :
    sendsTo id c = true ∨ dead g id = false ∨ ∃ messages, c = .get_mailbox .try_send id messages := by
  have pushing : ∀ kind target pushed messages, sendsTo id (.pushing kind target pushed messages) = true → target = id := by
    intro kind target pushed messages sends
    cases messages with
    | cons m messages => exact of_decide_eq_true sends
    | nil =>
      cases pushed with
      | nil => cases sends
      | cons first additional => exact of_decide_eq_true sends
  cases c with
  | idle =>
    have entered : Client.enter g call = (g',c') := Option.some.inj steps
    unfold Client.enter at entered
    split at entered
    · cases entered; cases sends
    · split at entered <;> cases entered <;> cases sends
    all_goals cases entered; cases sends
  | admit_message kind target messages =>
    cases steps
    cases admitted <;> cases sends
  | get_mailbox kind target messages =>
    simp only [Client.step] at steps
    split at steps
    · cases steps; cases sends
    · split at steps <;> cases steps
      · cases sends
      · cases sends
      · rw [← pushing _ _ _ _ sends]
        exact .inr (.inr ⟨messages,rfl⟩)
  | get_state kind target messages =>
    simp only [Client.step] at steps
    split at steps <;> cases steps
    · cases sends
    · cases sends
    all_goals
      next found =>
      rw [← pushing _ _ _ _ sends]
      exact .inr (.inl (by simp [dead,found]))
  | push kind target pushed message remaining =>
    simp only [Client.step] at steps
    split at steps
    · cases steps
    · split at steps
      · cases steps
      · cases steps; cases sends
      · cases steps
        rw [← pushing _ _ _ _ sends]
        exact .inl (decide_eq_true rfl)
  | enqueue | set_state | kill_clear | kill_unregister => cases steps; cases sends
  | kill id =>
    simp only [Client.step] at steps
    split at steps <;> cases steps <;> cases sends
  | kill_mailbox id =>
    simp only [Client.step] at steps
    split at steps <;> cases steps <;> cases sends

theorem enter_unmeddled {g : Shared} {call : Call} (sends : isSend call = true) : meddles (Client.enter g call).2 = none := by
  cases call with
  | send | try_send => rfl
  | send_batch target messages =>
    simp only [Client.enter]
    split <;> rfl
  | kill | set_actor_state => cases sends

theorem pushing_unmeddled (kind : SendKind) (target : ActorId) (pushed messages : List Message) :
    meddles (.pushing kind target pushed messages) = none := by
  cases messages with
  | cons => rfl
  | nil => cases pushed <;> rfl

/-- A client that only sends writes no state, and stores nothing for the dead. -/
theorem client_frame {s : System} {i : Nat} {call : Call} {c c' : Client} {g' : Shared} (inv : Tidy s)
    (found : s.clients[i]? = some c) (moves : ClientMove s.config s.shared i call c g' c') (id : ActorId) :
    g'.registry.get_state id = s.shared.registry.get_state id ∧
      (dead s.shared id = true → stored id g' = stored id s.shared) := by
  have member := List.mem_of_getElem? found
  have hands := inv.hands c member
  have used : ∀ target (f : Mailbox → Mailbox), sendsTo target c = true → dead s.shared id = true →
      stored id (s.shared.on_mailbox target f) = stored id s.shared := by
    intro target f sends gone
    by_cases own : id = target
    · rw [own,inv.senders target c member sends] at gone
      cases gone
    · exact stored_congr (stored_on_other own)
  cases moves with
  | enter =>
    obtain ⟨next,same⟩ := enter_frame s.shared call
    rw [same]
    exact ⟨rfl,fun _ => rfl⟩
  | look | enqueue => exact ⟨rfl,fun _ => rfl⟩
  | accept here pushes => exact ⟨rfl,used _ _ (decide_eq_true rfl)⟩
  | refuse here pushes => exact ⟨rfl,used _ _ (decide_eq_true rfl)⟩
  | set_state | kill | clear | unregister => cases hands

theorem client_hands {s : System} {i : Nat} {call : Call} {admitted : Bool} {c c' : Client} {g' : Shared} (inv : Tidy s)
    (turn : InTurn s (.client i call admitted)) (found : s.clients[i]? = some c)
    (moves : ClientMove s.config s.shared i call c g' c') : meddles c' = none := by
  have hands := inv.hands c (List.mem_of_getElem? found)
  cases moves with
  | enter => exact enter_unmeddled (turn.2 found)
  | look _ _ _ kept _ =>
    rcases kept with same | none
    · rw [same]; exact hands
    · exact none
  | accept => exact pushing_unmeddled ..
  | refuse | enqueue | set_state | unregister => rfl
  | kill | clear => cases hands

theorem tidy_client {s : System} {i : Nat} {call : Call} {admitted : Bool} {c c' : Client} {g' : Shared} (inv : Tidy s)
    (turn : InTurn s (.client i call admitted)) (careful : Careful s (.client i call admitted))
    (found : s.clients[i]? = some c) (steps : c.step s.config s.shared i call admitted = some (g',c')) :
    Tidy { s with shared := g', clients := s.clients.set i c' } := by
  have moves := client_move steps
  have frame := client_frame inv found moves
  refine ⟨?_,?_,?_,?_⟩
  · intro id gone unworked
    have before : dead s.shared id = true := (dead_congr (frame id).1).symm.trans gone
    show stored id g' = 0
    rw [(frame id).2 before]
    exact inv.settled id before unworked
  · intro w listed job holds
    rw [turn.1 w listed] at holds
    cases holds
  · intro id other listed sends
    show dead g' id = false
    rw [dead_congr (frame id).1]
    rcases List.mem_or_eq_of_mem_set listed with old | rfl
    · exact inv.senders id other old sends
    · rcases client_sends steps sends with before | alive | ⟨messages,rfl⟩
      · exact inv.senders id c (List.mem_of_getElem? found) before
      · exact alive
      · exact careful.alive id (by simp [unchecked,found])
  · intro other listed
    rcases List.mem_or_eq_of_mem_set listed with old | rfl
    · exact inv.hands other old
    · exact client_hands inv turn found moves

theorem tidy_init (config : SchedulerConfig) (n : Nat) : Tidy (.init config n) := by
  refine ⟨?_,?_,?_,?_⟩
  · intro id gone; cases gone
  · intro w listed; cases listed
  · intro id c listed sends
    rw [List.eq_of_mem_replicate listed] at sends
    cases sends
  · intro c listed
    rw [List.eq_of_mem_replicate listed]
    rfl

/-- A new actor is alive, and registering it touches nobody else. -/
theorem register_frame {g : Shared} {id : ActorId} (name : Option String) (a : ActorId)
    (gone : dead { g with registry := (g.registry.register_named id name).1 } a = true) :
    dead g a = true ∧ stored a { g with registry := (g.registry.register_named id name).1 } = stored a g := by
  rcases register_cases g.registry id name with same | ⟨absent,by_name,added⟩
  · rw [same] at gone ⊢
    exact ⟨gone,rfl⟩
  · rw [added] at gone ⊢
    by_cases own : a = id
    · subst own
      simp [dead,ActorRegistry.get_state] at gone
    · refine ⟨?_,stored_congr (AList.lookup_insert_ne own)⟩
      simpa [dead,ActorRegistry.get_state,AList.lookup_insert_ne own] using gone

theorem tidy_step {s s' : System} {label : Label} (fits : s.config.mailbox_config.capacity < 2 ^ 64) (sane : Sane s)
    (inv : Tidy s) (turn : InTurn s label) (careful : Careful s label) (stepped : s.step label = some s') : Tidy s' := by
  obtain ⟨move,-⟩ := step_move sane.toNoLocal stepped
  cases move with
  | worker found moves => exact tidy_worker fits sane inv turn careful found moves
  | @client i call admitted c c' g' found moves =>
    obtain ⟨other,here,rest⟩ := Option.bind_eq_some_iff.mp stepped
    obtain ⟨⟨h,next⟩,steps,same⟩ := Option.bind_eq_some_iff.mp rest
    rw [← Option.some.inj same]
    exact tidy_client inv turn careful here steps
  | drop_send found =>
    refine ⟨inv.settled,inv.leaves,?_,?_⟩
    · intro id c listed sends
      rcases List.mem_or_eq_of_mem_set listed with old | rfl
      · exact inv.senders id c old sends
      · cases sends
    · intro c listed
      rcases List.mem_or_eq_of_mem_set listed with old | rfl
      · exact inv.hands c old
      · rfl
  | @spawn id name fresh =>
    have frame := @register_frame s.shared id name
    refine ⟨?_,?_,?_,inv.hands⟩
    · intro a gone unworked
      obtain ⟨before,same⟩ := frame a gone
      exact same.trans (inv.settled a before unworked)
    · intro w listed job holds
      have leaves := inv.leaves w listed job holds
      cases gone : dead { s.shared with registry := (s.shared.registry.register_named id name).1 } job.actor_id with
      | false => exact leaves_alive _ job
      | true =>
        obtain ⟨before,same⟩ := frame job.actor_id gone
        rw [same,← before]
        exact leaves
    · intro a c listed sends
      have alive := inv.senders a c listed sends
      by_contra gone
      rw [(frame a (by simpa using gone)).1] at alive
      cases alive
  | receive => cases turn
  | @start_worker worker_id w free =>
    have workers : ∀ v ∈ s.workers ++ [w], ∀ job, holding v = some job → v ∈ s.workers := by
      intro v listed job holds
      rcases List.mem_append.mp listed with old | new
      · exact old
      · rw [List.mem_singleton.mp new,free] at holds
        cases holds
    refine ⟨?_,?_,inv.senders,inv.hands⟩
    · intro id gone unworked
      exact inv.settled id gone (fun v listed => unworked v (List.mem_append_left _ listed))
    · intro v listed job holds
      exact inv.leaves v (workers v listed job holds) job holds
  | set_running => exact ⟨inv.settled,inv.leaves,inv.senders,inv.hands⟩

theorem tidy_reach {config : SchedulerConfig} (fits : config.mailbox_config.capacity < 2 ^ 64) {n : Nat} {s : System}
    (reached : Reach System.step (fun s label => InTurn s label ∧ Careful s label) (.init config n) s) : Tidy s := by
  induction reached with
  | start => exact tidy_init config n
  | next before allowed stepped ih =>
    obtain ⟨same,sane⟩ := sane_reach fits before
    exact tidy_step (by rw [same]; exact fits) sane ih allowed.1 allowed.2 stepped

/-- In a careful run dead actors hold no mail, and no send returns `Ok` for
    one. -/
theorem dead_actors_hold_no_mail {config : SchedulerConfig} (fits : config.mailbox_config.capacity < 2 ^ 64) {n : Nat}
    {s : System} (reached : Reach System.step (fun s label => InTurn s label ∧ Careful s label) (.init config n) s) :
    NoMail s ∧ ∀ label, InTurn s label ∧ Careful s label → Refuses s label := by
  have tidy := tidy_reach fits reached
  obtain ⟨-,sane⟩ := sane_reach fits reached
  constructor
  · intro between id mb gone _ found
    have registered : s.shared.registry.mailboxes.lookup id = some mb := by
      simp only [ActorRegistry.get_mailbox,dead_registered gone,if_true] at found
      exact found
    have nothing := tidy.settled id gone (fun w listed job holds => by rw [between w listed] at holds; cases holds)
    simp only [stored,registered] at nothing
    have permits := (sane.registry.sound id mb registered).permits
    refine ⟨List.length_eq_zero_iff.mp ?_,by omega⟩
    rw [contents_length]
    exact nothing
  · rintro label ⟨turn,careful⟩ id returns
    cases label with
    | client i call admitted =>
      simp only [returnsOk] at returns
      split at returns
      · next target first additional found =>
        cases returns
        exact tidy.senders id _ (List.mem_of_getElem? found) (decide_eq_true rfl)
      · next found =>
        split at returns
        · cases returns
          exact careful.alive id (by simp [unchecked,found])
        · cases returns
      · cases returns
    | _ => cases returns

/-- Two messages are sent, and the executor fails the first. -/
def failedFirst : List Label :=
  started ++ sending_payload (.Custom [1]) ++ sending_payload (.Custom [2]) ++
    List.replicate 20 (.worker 0 (.returns .Failed) 0)

theorem rest_between {s : System} (rests : atRest s = true) : Between s ∧ tasks s.shared = [] := by
  simp only [atRest,Bool.and_eq_true,List.isEmpty_iff,List.all_eq_true] at rests
  exact ⟨fun w listed => by simpa using rests.1.2 w listed,rests.1.1⟩

theorem dead_actors_hold_no_mail_failed : ∃ s mb,
    Reach System.step (fun s label => InTurn s label ∧ Careful s label) (.init { executor := true } 1) s ∧
    dead s.shared ⟨1⟩ = true ∧ s.shared.history.accepted.length = 2 ∧
    s.shared.registry.get_mailbox ⟨1⟩ = some mb ∧ contents mb = [] ∧ mb.permits = 10000 := by
  have seen : (run (fun s label => if InTurn s label ∧ Careful s label then s.step label else none)
      (.init { executor := true } 1) failedFirst).map (fun s => (atRest s,dead s.shared ⟨1⟩,
        s.shared.history.accepted.length,(s.shared.registry.get_mailbox ⟨1⟩).isSome)) = some (true,true,2,true) := by
    decide +kernel
  obtain ⟨s,runs,same⟩ := Option.map_eq_some_iff.mp seen
  simp only [Prod.mk.injEq] at same
  obtain ⟨rests,gone,two,present⟩ := same
  have reached : Reach System.step (fun s label => InTurn s label ∧ Careful s label) (.init { executor := true } 1) s :=
    reach_guarded runs
  obtain ⟨between,unqueued⟩ := rest_between rests
  obtain ⟨mb,found⟩ := Option.isSome_iff_exists.mp present
  obtain ⟨nothing,permits⟩ := (dead_actors_hold_no_mail (by decide) reached).1 between ⟨1⟩ mb gone
    (by simp [unqueued]) found
  have config := (sane_reach (by decide) reached).1
  rw [config] at permits
  exact ⟨s,mb,reached,gone,two,found,nothing,permits⟩

/-- A `Stop` is sent, and a message behind it. -/
def stoppedFirst : List Label :=
  started ++ sending_payload .Stop ++ sending_payload (.Custom [1]) ++
    List.replicate 21 (.worker 0 (.returns .Success) 0)

/-- Then a `try_send`, up to the push of its task. -/
def triedAfterwards : List Label :=
  stoppedFirst ++ List.replicate 3 (.client 0 (.try_send ⟨1⟩ ⟨none,.Custom [2],.Normal,0⟩) true)

/-- The message behind the `Stop` stays in the mailbox, and `try_send` returns `Ok`
    for the stopped actor. -/
theorem stopped_actor_holds_mail :
    (¬ ∀ (config : SchedulerConfig) (n : Nat) (s : System), Reach System.step InTurn (.init config n) s → NoMail s) ∧
    ¬ ∀ (config : SchedulerConfig) (n : Nat) (s : System), Reach System.step InTurn (.init config n) s →
      ∀ label, InTurn s label → (s.step label).isSome = true → Refuses s label := by
  constructor
  · intro always
    have seen : (run (fun s label => if InTurn s label then s.step label else none) (.init {} 1) stoppedFirst).map
        (fun s => (atRest s,dead s.shared ⟨1⟩,(s.shared.registry.get_mailbox ⟨1⟩).map (fun mb => (contents mb).length))) =
        some (true,true,some 1) := by decide +kernel
    obtain ⟨s,runs,same⟩ := Option.map_eq_some_iff.mp seen
    simp only [Prod.mk.injEq] at same
    obtain ⟨rests,gone,one⟩ := same
    obtain ⟨between,unqueued⟩ := rest_between rests
    obtain ⟨mb,found,left⟩ := Option.map_eq_some_iff.mp one
    obtain ⟨nothing,-⟩ := always {} 1 s (reach_guarded runs) between ⟨1⟩ mb gone (by simp [unqueued]) found
    rw [nothing] at left
    cases left
  · intro always
    let label : Label := .client 0 (.try_send ⟨1⟩ ⟨none,.Custom [2],.Normal,0⟩) true
    have seen : (run (fun s label => if InTurn s label then s.step label else none) (.init {} 1) triedAfterwards).map
        (fun s => (decide (InTurn s label),(s.step label).isSome,returnsOk s label,dead s.shared ⟨1⟩)) =
        some (true,true,some ⟨1⟩,true) := by decide +kernel
    obtain ⟨s,runs,same⟩ := Option.map_eq_some_iff.mp seen
    simp only [Prod.mk.injEq] at same
    obtain ⟨turn,enabled,returns,gone⟩ := same
    have refused := always {} 1 s (reach_guarded runs) label (of_decide_eq_true turn) enabled ⟨1⟩ returns
    rw [gone] at refused
    cases refused

end ActorKit.DeadMail
