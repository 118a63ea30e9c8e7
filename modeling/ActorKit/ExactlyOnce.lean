import ActorKit.Outcomes
import ActorKit.Slots

/-!
# Execution across suspensions

A message whose task is consumed while its actor is suspended is pushed into the
mailbox a second time, and the signal that ends the suspension runs whatever it
pops. Nothing ties the popped copies to the messages that still wait. Messages
are executed exactly once in the runs where no actor becomes active again after
a re-queue and no drain meets an ordinary message.
-/

namespace ActorKit.ExactlyOnce
open ActorKit.mailbox ActorKit.registry ActorKit.queue ActorKit.scheduler ActorKit.MailboxCalls ActorKit.Moves
open ActorKit.Inventory ActorKit.Transition ActorKit.Counting ActorKit.Delivery ActorKit.Outcomes
open ActorKit.Slots (Active Quiet sending calm)

instance : DecidablePred Active := fun state => inferInstanceAs (Decidable (state = _ ∨ state = _))

/-! ## The states a step assigns -/

/-- The state the next call of a job gives its actor. -/
def sets (job : Job) : Option ActorState :=
  match job.stage with
  | .set_state state => some state
  | .control m => state_change m.payload
  | .fail | .panic => some .Failed
  | _ => none

/-- The state a step gives an actor. -/
def assigns (a : ActorId) (s : System) : Label → Option ActorState
  | .worker i _ _ => match (s.workers[i]?).bind holding with
    | some job => if job.actor_id = a then sets job else none
    | none => none
  | .client i _ _ => match s.clients[i]? with
    | some (.set_state id state) => if id = a then some state else none
    | some (.kill id) => if id = a then some .Stopped else none
    | _ => none
  | _ => none

theorem job_state {config : SchedulerConfig} {g g' : Shared} {job : Job} {next : Option Job} {execution : Execution}
    (steps : job.step config g execution = (g',next)) :
    g'.registry.get_state job.actor_id = g.registry.get_state job.actor_id ∨
      ∃ state, sets job = some state ∧
        g'.registry.get_state job.actor_id = (g.registry.get_state job.actor_id).map (fun _ => state) := by
  have assigned : ∀ state, sets job = some state → g' = g.set_state job.actor_id state →
      ∃ state, sets job = some state ∧
        g'.registry.get_state job.actor_id = (g.registry.get_state job.actor_id).map (fun _ => state) := by
    rintro state set rfl
    exact ⟨state,set,by rw [Shared.set_state,get_state_set,if_pos rfl]⟩
  obtain ⟨id,batch,rest,depth,stage⟩ := job
  have same : ∀ {g' : Shared}, g'.registry.by_id = g.registry.by_id → g'.registry.get_state id = g.registry.get_state id := by
    intro g' entries
    rw [ActorRegistry.get_state,entries,ActorRegistry.get_state]
  cases job_move steps with
  | assigns => exact .inr (assigned _ rfl rfl)
  | fail_assigns | panic_assigns => exact .inr (assigned .Failed rfl rfl)
  | control_assigns changes => exact .inr (assigned _ changes rfl)
  | records =>
    left
    simp [ActorRegistry.record_processed,ActorRegistry.get_state,Function.comp_def]
  | _ => exact .inl (same rfl)

/-- A step assigns a state, registers the actor, or leaves its state alone. -/
theorem state_step {s s' : System} {label : Label} {a : ActorId} (unkilled : ∀ c ∈ s.clients, dying c ≠ some a)
    (move : Move s label s') :
    s'.shared.registry.get_state a = s.shared.registry.get_state a ∨
      (∃ state, assigns a s label = some state ∧
        s'.shared.registry.get_state a = (s.shared.registry.get_state a).map (fun _ => state)) ∨
      (s.shared.registry.mailboxes.lookup a = none ∧ s'.shared.registry.get_state a = some .Creating) := by
  cases move with
  | @worker i _ _ w _ _ found moves =>
    cases moves with
    | look | take => exact .inl rfl
    | @work _ job _ holds steps =>
      by_cases mine : job.actor_id = a
      · subst mine
        rcases job_state steps with same | ⟨state,set,assigned⟩
        · exact .inl same
        · exact .inr (.inl ⟨state,by simp [assigns,found,holds,set],assigned⟩)
      · exact .inl ((effect_frame (step_effect steps)).states a (Ne.symm mine))
  | @client i call admitted c _ _ found moves =>
    cases moves with
    | enter =>
      obtain ⟨_,same⟩ := enter_frame s.shared call
      rw [same]
      exact .inl rfl
    | look | accept | refuse | enqueue | clear => exact .inl rfl
    | @set_state id state =>
      have after := get_state_set s.shared.registry id state a
      by_cases mine : a = id
      · exact .inr (.inl ⟨state,by simp [assigns,found,mine],by rw [if_pos mine] at after; exact after⟩)
      · exact .inl (by rw [if_neg mine] at after; exact after)
    | @kill id =>
      have after := get_state_set s.shared.registry id .Stopped a
      by_cases mine : a = id
      · exact .inr (.inl ⟨.Stopped,by simp [assigns,found,mine],by rw [if_pos mine] at after; exact after⟩)
      · exact .inl (by rw [if_neg mine] at after; exact after)
    | @unregister id =>
      have other : a ≠ id := by
        rintro rfl
        exact unkilled _ (List.mem_of_getElem? found) rfl
      left
      show ((s.shared.registry.unregister id).1).get_state a = _
      unfold ActorRegistry.unregister
      split
      · simp [ActorRegistry.get_state,other]
      · rfl
  | @spawn id name fresh =>
    rcases register_cases s.shared.registry id name with same | ⟨-,by_name,added⟩
    · exact .inl (by rw [same])
    · by_cases mine : a = id
      · subst mine
        exact .inr (.inr ⟨fresh,by simp [added,ActorRegistry.get_state]⟩)
      · left
        simp [added,ActorRegistry.get_state,mine]
  | drop_send | receive | start_worker | set_running => exact .inl rfl

/-! ## Runs without a stop -/

/-- Nobody kills the actor, sets it by hand to `Stopped` or `Failed`, or drops the
    future of a batch to it. -/
def Peaceful (a : ActorId) (s : System) : Label → Prop
  | .client i call _ => s.clients[i]? = some .idle → match call with
    | .kill id => id ≠ a
    | .set_actor_state id state => id = a → state ≠ .Stopped ∧ state ≠ .Failed
    | _ => True
  | .drop_send i => Completed a s (.drop_send i)
  | _ => True

/-- What keeps an actor from being stopped. -/
structure Peace (a : ActorId) (s : System) : Prop where
  alive : Alive a s
  alone : ∀ c ∈ s.clients, ∀ state, meddles c = some (a,state) → state ≠ .Stopped ∧ state ≠ .Failed
  gentle : ∀ w ∈ s.workers, ∀ job, holding w = some job → job.actor_id = a → ∀ state, sets job = some state →
    state ≠ .Stopped ∧ state ≠ .Failed

theorem state_change_lives {payload : MessagePayload} (lives : payload ≠ .Stop) {state : ActorState}
    (changes : state_change payload = some state) : state ≠ .Stopped ∧ state ≠ .Failed := by
  unfold state_change at changes
  split at changes <;> simp_all
  all_goals
    subst changes
    simp

theorem finish_sets {job next : Job} (done : job.finish = some next) : sets next = none := by
  unfold Job.finish at done
  split at done
  · cases done; rfl
  · split at done <;> cases done
    rfl

/-- Without an executor a job only assigns the states of the messages in its
    hand. -/
theorem job_sets {config : SchedulerConfig} (bare : config.executor = false) {g g' : Shared} {job next : Job}
    {execution : Execution} (steps : job.step config g execution = (g',some next)) {state : ActorState}
    (set : sets next = some state) : ∃ m ∈ hand job, state_change m.payload = some state := by
  obtain ⟨id,batch,rest,depth,stage⟩ := job
  have move := job_move steps
  generalize after : some next = result at move
  cases move with
  | asleep_control =>
    cases after
    exact ⟨_,List.mem_cons_self,set⟩
  | @handled m change changes =>
    cases after
    have own : change = state_change m.payload := by simpa [bare] using changes
    refine ⟨m,List.mem_cons_self,?_⟩
    rw [← own]
    cases change with
    | none => cases set
    | some other => exact set
  | absent | unboxed | releases | fail_unboxed | fail_clears | unwoken | drain_unboxed | drain_ends | pop_ends
    | requeue_unboxed | requeue_pushes =>
    rw [finish_sets after.symm] at set
    cases set
  | fails installed | panics installed =>
    rw [bare] at installed
    cases installed
  | batch_abandoned | batch_done | panic_unboxed | panic_clears => cases after
  | _ =>
    cases after
    cases set

theorem enter_peaceful {a : ActorId} {s : System} {i : Nat} {call : Call} {admitted : Bool}
    (peaceful : Peaceful a s (.client i call admitted)) (found : s.clients[i]? = some .idle) {state : ActorState}
    (hands : meddles (Client.enter s.shared call).2 = some (a,state)) : state ≠ .Stopped ∧ state ≠ .Failed := by
  have may := peaceful found
  cases call with
  | send | try_send => cases hands
  | send_batch target messages =>
    simp only [Client.enter] at hands
    split at hands <;> cases hands
  | kill id =>
    cases hands
    exact absurd rfl may
  | set_actor_state id state =>
    cases hands
    exact may rfl

theorem peace_step {s s' : System} {label : Label} {a : ActorId} (bare : s.config.executor = false)
    (accepted : Accepted a s) (unstopped : ∀ m, (a,m) ∈ s.shared.history.accepted → m.payload ≠ .Stop)
    (inv : Peace a s) (peaceful : Peaceful a s label) (move : Move s label s') : Peace a s' := by
  have unkilled : ∀ c ∈ s.clients, dying c ≠ some a := by
    intro c member dies
    have hands : meddles c = some (a,.Stopped) := by cases c <;> simp_all [dying,meddles]
    exact (inv.alone c member _ hands).1 rfl
  have alive : Alive a s' := by
    intro state after
    rcases state_step unkilled move with same | ⟨given,assigned,same⟩ | ⟨-,created⟩
    · exact inv.alive state (same ▸ after)
    · rw [same] at after
      obtain ⟨_,_,rfl⟩ := Option.map_eq_some_iff.mp after
      cases label with
      | worker i =>
        simp only [assigns] at assigned
        split at assigned
        · next job holds =>
          obtain ⟨w,found,held⟩ := Option.bind_eq_some_iff.mp holds
          split at assigned
          · next mine => exact inv.gentle w (List.mem_of_getElem? found) job held mine _ assigned
          · cases assigned
        · cases assigned
      | client i =>
        simp only [assigns] at assigned
        split at assigned
        · next id state found =>
          split at assigned <;> cases assigned
          next mine => exact inv.alone _ (List.mem_of_getElem? found) _ (by rw [← mine]; rfl)
        · next id found =>
          split at assigned <;> cases assigned
          next mine => exact inv.alone _ (List.mem_of_getElem? found) _ (by rw [← mine]; rfl)
        · cases assigned
      | _ => cases assigned
    · rw [created] at after
      cases after
      simp
  have hands : ∀ {clients : List Client} {i : Nat} {c' : Client}, clients = s.clients →
      (∀ state, meddles c' = some (a,state) → state ≠ .Stopped ∧ state ≠ .Failed) →
      ∀ c ∈ clients.set i c', ∀ state, meddles c = some (a,state) → state ≠ .Stopped ∧ state ≠ .Failed := by
    rintro _ i c' rfl own c member
    rcases List.mem_or_eq_of_mem_set member with old | rfl
    · exact inv.alone c old
    · exact own
  refine ⟨alive,?_,?_⟩
  · cases move with
    | @client i call admitted c c' _ found moves =>
      cases moves with
      | enter => exact hands rfl (fun _ => enter_peaceful peaceful found)
      | look _ _ _ same _ =>
        refine hands rfl (fun state mine => ?_)
        rcases same with kept | none
        · exact inv.alone c (List.mem_of_getElem? found) state (kept ▸ mine)
        · rw [none] at mine; cases mine
      | @accept kind target pushed remaining m _ _ _ _ =>
        refine hands rfl ?_
        rw [(pushing_next kind target pushed m remaining a).2.2]
        rintro _ ⟨⟩
      | kill | clear => exact hands rfl (fun state mine => inv.alone _ (List.mem_of_getElem? found) state mine)
      | refuse | enqueue | set_state | unregister => exact hands rfl (by rintro _ ⟨⟩)
    | drop_send => exact hands rfl (by rintro _ ⟨⟩)
    | worker | spawn | receive | start_worker | set_running => exact inv.alone
  · cases move with
    | @worker i _ _ w w' _ found moves =>
      have member := List.mem_of_getElem? found
      have others : (∀ job, holding w' = some job → job.actor_id = a → ∀ state, sets job = some state →
          state ≠ .Stopped ∧ state ≠ .Failed) → ∀ other ∈ s.workers.set i w', ∀ job, holding other = some job →
          job.actor_id = a → ∀ state, sets job = some state → state ≠ .Stopped ∧ state ≠ .Failed := by
        intro own other listed
        rcases List.mem_or_eq_of_mem_set listed with old | rfl
        · exact inv.gentle other old
        · exact own
      cases moves with
      | look _ still => exact others (by simp [still])
      | take _ _ holds =>
        refine others (fun job same _ state set => ?_)
        rw [holds] at same
        cases same
        cases set
      | @work _ job _ holds steps =>
        refine others (fun next goes mine state set => ?_)
        rw [goes] at steps
        obtain ⟨m,inHand,changes⟩ := job_sets bare steps set
        have same : job.actor_id = a := (job_hand steps).1.symm.trans mine
        exact state_change_lives (unstopped m (accepted.held w member job holds same m inHand)) changes
    | start_worker free =>
      intro w member job holds
      rcases List.mem_append.mp member with old | new
      · exact inv.gentle w old job holds
      · rw [List.mem_singleton.mp new,free] at holds
        cases holds
    | client | drop_send | spawn | receive | set_running => exact inv.gentle

theorem peace_reach {config : SchedulerConfig} (fits : config.mailbox_config.capacity < 2 ^ 64)
    (bare : config.executor = false) {n : Nat} {ok : System → Label → Prop} {a : ActorId} {s : System}
    (peaceful : ∀ s label, ok s label → Peaceful a s label) (reached : Reach System.step ok (.init config n) s)
    (unstopped : ∀ m, (a,m) ∈ s.shared.history.accepted → m.payload ≠ .Stop) : Peace a s := by
  induction reached with
  | start =>
    refine ⟨?_,?_,?_⟩
    · intro state found; cases found
    · intro c member state hands
      rw [List.eq_of_mem_replicate member] at hands
      cases hands
    · intro w member; cases member
  | next before allowed stepped ih =>
    obtain ⟨same,sane⟩ := sane_reach fits before
    have move := (step_move sane.toNoLocal stepped).1
    have earlier := fun m member => unstopped m (accepted_grows move _ member)
    exact peace_step (by rw [same]; exact bare) (accepted_reach fits a before) earlier (ih earlier)
      (peaceful _ _ allowed) move

/-! ## Runs that do not wake re-queued messages -/

/-- The message a drain is about to take out of the actor's mailbox. -/
def drains (a : ActorId) (s : System) : Label → Option Message
  | .worker i _ _ => match (s.workers[i]?).bind holding with
    | some job => if job.actor_id = a ∧ job.stage = .drain_pop then
        (s.shared.registry.mailboxes.lookup a).bind (fun mb => mb.try_recv.2)
      else none
    | none => none
  | _ => none

/-- The actor is not made active again once one of its messages was re-queued, and
    no drain takes anything but control messages. -/
structure Unresumed (a : ActorId) (s : System) (label : Label) : Prop where
  asleep : ∀ state ∈ assigns a s label, Active state → ∀ e ∈ s.shared.history.requeued, e.1 ≠ a
  undrained : ∀ m ∈ drains a s label, is_control m.payload = true

instance (a : ActorId) (s : System) (label : Label) : Decidable (Unresumed a s label) :=
  decidable_of_iff ((∀ state ∈ assigns a s label, Active state → ∀ e ∈ s.shared.history.requeued, e.1 ≠ a) ∧
    ∀ m ∈ drains a s label, is_control m.payload = true) ⟨fun both => ⟨both.1,both.2⟩,fun both => ⟨both.1,both.2⟩⟩

/-- A run of sends that never wakes a re-queued message. -/
def Orderly (a : ActorId) (s : System) (label : Label) : Prop := Peaceful a s label ∧ Unresumed a s label

/-- Ordinary messages are left to the account. -/
theorem unresumed_spares {a : ActorId} {s : System} {label : Label} (unresumed : Unresumed a s label) {m : Message}
    (ordinary : is_control m.payload = false) : Spares a m s label := by
  cases label with
  | worker i execution moved =>
    intro w job found holds mine
    refine ⟨fun _ _ => ordinary,?_⟩
    intro atDrain mb here received
    subst mine
    have popped : drains job.actor_id s (.worker i execution moved) = some m := by
      simp [drains,found,holds,atDrain,here,received]
    rw [unresumed.undrained m popped] at ordinary
    cases ordinary
  | _ => trivial

/-- Only accepted messages are re-queued, and only while the actor sleeps. -/
structure Asleep (a : ActorId) (s : System) : Prop where
  accepted : ∀ m, (a,m) ∈ s.shared.history.requeued → (a,m) ∈ s.shared.history.accepted
  inactive : ∀ m, (a,m) ∈ s.shared.history.requeued → ∀ state, s.shared.registry.get_state a = some state →
    ¬Active state

theorem asleep_step {s s' : System} {label : Label} {a : ActorId} (accepted : Accepted a s) (rooted : Rooted a s)
    (inv : Asleep a s) (unresumed : Unresumed a s label) (move : Move s label s') : Asleep a s' := by
  have grows := accepted_grows move
  -- The log only grows at a worker that finds the actor suspended.
  have logged : (∀ m, (a,m) ∈ s'.shared.history.requeued → (a,m) ∈ s.shared.history.requeued) ∨
      (s'.shared.registry.get_state a = some .Suspended ∧
        ∀ m, (a,m) ∈ s'.shared.history.requeued → (a,m) ∈ s.shared.history.accepted) := by
    cases move with
    | @worker _ _ _ w _ _ found moves =>
      cases moves with
      | look | take => exact .inl (fun _ member => member)
      | @work _ job _ holds steps =>
        cases step_effect steps with
        | @requeued m inHand asleep =>
          by_cases mine : job.actor_id = a
          · subst mine
            refine .inr ⟨asleep,fun m' member => ?_⟩
            rcases List.mem_append.mp member with old | new
            · exact inv.accepted m' old
            · cases List.mem_singleton.mp new
              exact accepted.held w (List.mem_of_getElem? found) job holds rfl m inHand
          · refine .inl (fun m' member => ?_)
            rcases List.mem_append.mp member with old | new
            · exact old
            · cases List.mem_singleton.mp new
              exact absurd rfl mine
        | _ => exact .inl (fun _ member => member)
    | client _ moves =>
      cases moves with
      | enter =>
        obtain ⟨_,same⟩ := enter_frame s.shared _
        rw [same]
        exact .inl (fun _ member => member)
      | _ => exact .inl (fun _ member => member)
    | _ => exact .inl (fun _ member => member)
  rcases logged with older | ⟨asleep,sent⟩
  · refine ⟨fun m member => grows _ (inv.accepted m (older m member)),fun m member state after active => ?_⟩
    have before := older m member
    rcases state_step rooted.unkilled move with same | ⟨given,assigned,same⟩ | ⟨fresh,-⟩
    · exact inv.inactive m before state (same ▸ after) active
    · rw [same] at after
      obtain ⟨_,_,rfl⟩ := Option.map_eq_some_iff.mp after
      exact unresumed.asleep _ assigned active _ before rfl
    · have known := rooted.known m (inv.accepted m before)
      rw [fresh] at known
      cases known
  · refine ⟨fun m member => grows _ (sent m member),fun m _ state after => ?_⟩
    rw [asleep] at after
    cases after
    simp [Active]

/-- The account of every ordinary message of an orderly run. -/
theorem orderly_reach {config : SchedulerConfig} (fits : config.mailbox_config.capacity < 2 ^ 64)
    (bare : config.executor = false) {n : Nat} {a : ActorId} {s : System}
    (reached : Reach System.step (Orderly a) (.init config n) s)
    (unstopped : ∀ m, (a,m) ∈ s.shared.history.accepted → m.payload ≠ .Stop) :
    Rooted a s ∧ Asleep a s ∧ ∀ m, is_control m.payload = false → accounted a m s = carried a m s := by
  induction reached with
  | start =>
    refine ⟨rooted_init config n a,⟨?_,?_⟩,fun m _ => accounted_start config n a m⟩
    · intro m none; cases none
    · intro m none; cases none
  | next before allowed stepped ih =>
    obtain ⟨-,sane⟩ := sane_reach fits before
    have move := (step_move sane.toNoLocal stepped).1
    have earlier := fun m member => unstopped m (accepted_grows move _ member)
    obtain ⟨rooted,asleep,account⟩ := ih earlier
    have accepted := accepted_reach fits a before
    have alive := (peace_reach fits bare (fun _ _ allowed => allowed.1) before earlier).alive
    have next := (peace_reach fits bare (fun _ _ allowed => allowed.1) (.next before allowed stepped) unstopped).alive
    refine ⟨rooted_step accepted rooted alive next move,asleep_step accepted rooted asleep allowed.2 move,?_⟩
    intro m ordinary
    have step := accounted_step rooted alive (unresumed_spares allowed.2 ordinary) move
    have same := account m ordinary
    omega

/-- In a run that never wakes a re-queued message, an ordinary message is executed
    at most once, and exactly once when the actor runs and nothing of it is left. -/
theorem executed_exactly_once {config : SchedulerConfig} (fits : config.mailbox_config.capacity < 2 ^ 64)
    (bare : config.executor = false) {n : Nat} {a : ActorId} {s : System}
    (reached : Reach System.step (Orderly a) (.init config n) s)
    (unstopped : ∀ m, (a,m) ∈ s.shared.history.accepted → m.payload ≠ .Stop) {m : Message} {bytes : List UInt8}
    (custom : m.payload = .Custom bytes) (sent : (a,m) ∈ s.shared.history.accepted) :
    s.shared.history.executed.count (a,m) ≤ 1 ∧
      (s.shared.registry.get_state a = some .Running → Quiet a s → s.shared.history.executed.count (a,m) = 1) := by
  have ordinary : is_control m.payload = false := by rw [custom]; rfl
  obtain ⟨-,asleep,accounts⟩ := orderly_reach fits bare reached unstopped
  have account := accounts m ordinary
  have once := accepted_once (issued_reach fits a reached) m
  have forwards := (forwarded_reach fits m reached).2 (fun s label allowed => by
    cases label with
    | drop_send => exact allowed.1
    | _ => trivial)
  unfold forwarded at forwards
  constructor
  · unfold accounted settled at account
    omega
  · intro running quiet
    have idle := accounted_idle m quiet.unqueued quiet.unheld
    have unsent : (s.clients.map (fun c => (pushedBy a c).count m)).sum = 0 := by
      refine sum_map_eq_zero _ _ (fun c member => ?_)
      rw [quiet.unpushed member,List.count_nil]
    have awake : s.shared.history.requeued.count (a,m) = 0 := by
      refine List.count_eq_zero.mpr (fun listed => ?_)
      exact asleep.inactive m listed _ running (.inl rfl)
    have received : 0 < s.shared.history.accepted.count (a,m) := List.count_pos_iff.mpr sent
    unfold settled at idle
    omega

/-! ## Two runs -/

theorem calm_peaceful (a : ActorId) {labels : List Label} (all : ∀ label ∈ labels, calm label = true) :
    ∀ label ∈ labels, ∀ s, Peaceful a s label := by
  intro label member s
  have ordinary := all label member
  unfold Slots.calm at ordinary
  split at ordinary
  · trivial
  · trivial
  · trivial
  · trivial
  · exact fun _ => trivial
  · exact fun _ => trivial
  · exact fun _ => trivial
  · cases ordinary

/-- Nothing is queued, processed or being sent. -/
def atRest (s : System) : Bool :=
  (tasks s.shared).isEmpty && s.workers.all (fun w => (holding w).isNone) && s.clients.all (fun c => c == .idle)

theorem quiet_at_rest {s : System} (a : ActorId) (rests : atRest s = true) : Quiet a s := by
  simp only [atRest,Bool.and_eq_true,List.isEmpty_iff] at rests
  obtain ⟨⟨unqueued,unheld⟩,idle⟩ := rests
  refine ⟨?_,?_,?_⟩
  · intro c member
    rw [eq_of_beq (List.all_eq_true.mp idle c member)]
    exact id
  · intro task member
    rw [unqueued] at member
    cases member
  · intro w member job holds
    have free := List.all_eq_true.mp unheld w member
    rw [holds] at free
    cases free

/-- The calls of one `send` of a payload to the actor. -/
def sending_payload (payload : MessagePayload) : List Label :=
  List.replicate 6 (.client 0 (.send ⟨1⟩ { sender := none, payload, priority := .Normal }) true)

def started : List Label := [.spawn ⟨1⟩ none,.set_running true,.start_worker 0]

/-- A message is processed, the actor is paused and resumed, and another one is
    processed. -/
def pausedInBetween : List Label :=
  let work (n : Nat) : List Label := List.replicate n (.worker 0 (.returns .Success) 0)
  started ++ sending_payload (.Custom [1]) ++ work 12 ++ sending_payload (.Signal .Pause) ++ work 13 ++
    sending_payload (.Signal .Resume) ++ work 14 ++ sending_payload (.Custom [2]) ++ work 12

theorem executed_exactly_once_paused : ∃ s, Reach System.step (Orderly ⟨1⟩) (.init {} 1) s ∧
    s.shared.registry.get_state ⟨1⟩ = some .Running ∧
    s.shared.history.executed.count (⟨1⟩,⟨none,.Custom [2],.Normal,3⟩) = 1 := by
  have seen : (run (fun s label => if Unresumed ⟨1⟩ s label then s.step label else none) (.init {} 1)
      pausedInBetween).map (fun s => (atRest s,s.shared.registry.get_state ⟨1⟩,s.shared.history.accepted)) =
      some (true,some .Running,[(⟨1⟩,⟨none,.Custom [1],.Normal,0⟩),(⟨1⟩,⟨none,.Signal .Pause,.Normal,1⟩),
        (⟨1⟩,⟨none,.Signal .Resume,.Normal,2⟩),(⟨1⟩,⟨none,.Custom [2],.Normal,3⟩)]) := by decide +kernel
  obtain ⟨s,runs,same⟩ := Option.map_eq_some_iff.mp seen
  simp only [Prod.mk.injEq] at same
  obtain ⟨rests,running,accepted⟩ := same
  have reached : Reach System.step (Orderly ⟨1⟩) (.init {} 1) s :=
    reach_checked .start (calm_peaceful ⟨1⟩ (by decide)) runs
  have once := executed_exactly_once (by decide) rfl reached (by simp [accepted]) rfl
    (by rw [accepted]; decide : ((⟨1⟩ : ActorId),⟨none,.Custom [2],.Normal,3⟩) ∈ s.shared.history.accepted)
  exact ⟨s,reached,running,once.2 running (quiet_at_rest ⟨1⟩ rests)⟩

/-- Two messages are processed while the actor is suspended, and it is resumed. -/
def resumedAfterTwo : List Label :=
  let work (n : Nat) : List Label := List.replicate n (.worker 0 (.returns .Success) 0)
  started ++ sending_payload (.Signal .Pause) ++ work 13 ++ sending_payload (.Custom [1]) ++
    sending_payload (.Custom [2]) ++ work 20 ++ sending_payload (.Signal .Resume) ++ work 30

def pause : Message := ⟨none,.Signal .Pause,.Normal,0⟩
def first : Message := ⟨none,.Custom [1],.Normal,1⟩
def second : Message := ⟨none,.Custom [2],.Normal,2⟩
def resume : Message := ⟨none,.Signal .Resume,.Normal,3⟩
def single (m : Message) : Task := { actor_id := ⟨1⟩, message := m, priority := .Normal }

/-- The mailbox holds both messages twice when the resume arrives; its release
    takes a copy of the first, and the drain runs the second two times. -/
theorem resumed_executes_twice : ∃ s, Reach System.step (Peaceful ⟨1⟩) (.init {} 1) s ∧
    (∀ m, ((⟨1⟩ : ActorId),m) ∈ s.shared.history.accepted →
      m.payload = .Signal .Pause ∨ m.payload = .Signal .Resume ∨ ∃ bytes, m.payload = .Custom bytes) ∧
    s.shared.registry.get_state ⟨1⟩ = some .Running ∧ Quiet ⟨1⟩ s ∧
    (⟨1⟩,first) ∈ s.shared.history.accepted ∧ s.shared.history.executed.count (⟨1⟩,first) = 0 ∧
    (⟨1⟩,second) ∈ s.shared.history.accepted ∧ s.shared.history.executed.count (⟨1⟩,second) = 2 := by
  have seen : (run System.step (.init {} 1) resumedAfterTwo).map (fun s => (atRest s,
        s.shared.registry.get_state ⟨1⟩,s.shared.history)) =
      some (true,some .Running,{
        next_uid := 4
        accepted := [(⟨1⟩,pause),(⟨1⟩,first),(⟨1⟩,second),(⟨1⟩,resume)]
        enqueued := [(0,single pause),(0,single first),(0,single second),(0,single resume)]
        taken := [single pause,single first,single second,single resume]
        executed := [(⟨1⟩,pause),(⟨1⟩,second),(⟨1⟩,second)]
        requeued := [(⟨1⟩,first),(⟨1⟩,second)] }) := by decide +kernel
  obtain ⟨s,runs,same⟩ := Option.map_eq_some_iff.mp seen
  simp only [Prod.mk.injEq] at same
  obtain ⟨rests,running,history⟩ := same
  refine ⟨s,reach_run .start (calm_peaceful ⟨1⟩ (by decide)) runs,?_,running,quiet_at_rest ⟨1⟩ rests,?_⟩
  · simp [history,pause,first,second,resume]
  · rw [history]
    decide

end ActorKit.ExactlyOnce
