import ActorKit.Moves
import ActorKit.Lib.Counting

/-!
# Where messages are

Between its push and the end of its task a message is with the send that pushed
it, in a queued task, in the hand of a worker, or stored in the mailbox. Nothing
that was not accepted is ever found there. Weights sum a number over the
messages of one actor in the queued tasks.
-/

namespace ActorKit.Inventory
open ActorKit.mailbox ActorKit.registry ActorKit.queue ActorKit.scheduler ActorKit.MailboxCalls ActorKit.Moves
open ActorKit.Transition

/-! ## Queued tasks -/

theorem mem_tasks (g : Shared) (task : Task) :
    task ∈ tasks g ↔ (∃ lane, task ∈ g.injectors.get lane) ∨ task ∈ g.deques.flatten := by
  constructor
  · intro member
    simp only [tasks,List.mem_append] at member
    rcases member with ((((critical | high) | normal) | low) | global) | stored
    · exact .inl ⟨.critical,critical⟩
    · exact .inl ⟨.high,high⟩
    · exact .inl ⟨.normal,normal⟩
    · exact .inl ⟨.low,low⟩
    · exact .inl ⟨.global,global⟩
    · exact .inr stored
  · rintro (⟨lane,member⟩ | stored)
    · cases lane <;> simp_all [tasks,Injectors.get]
    · simp [tasks,stored]

/-- The tasks are those of the queues. -/
theorem tasks_congr {g g' : Shared} (injectors : g'.injectors = g.injectors) (deques : g'.deques = g.deques) :
    tasks g' = tasks g := by
  simp only [tasks,injectors,deques]

theorem tasks_take {g : Shared} {lane : Lane} {task : Task} {rest : List Task}
    (found : g.injectors.get lane = task :: rest) :
    task ∈ tasks g ∧ ∀ other ∈ tasks { g with injectors := g.injectors.set lane rest }, other ∈ tasks g := by
  refine ⟨(mem_tasks ..).mpr (.inl ⟨lane,by simp [found]⟩),?_⟩
  intro other member
  rcases (mem_tasks ..).mp member with ⟨from_,listed⟩ | stored
  · simp only [Injectors.get_set] at listed
    split at listed
    · exact (mem_tasks ..).mpr (.inl ⟨lane,by simp [found,listed]⟩)
    · exact (mem_tasks ..).mpr (.inl ⟨from_,listed⟩)
  · exact (mem_tasks ..).mpr (.inr stored)

theorem tasks_enqueue {g : Shared} {lane : Lane} {task other : Task}
    (member : other ∈ tasks { g with injectors := g.injectors.set lane (g.injectors.get lane ++ [task]) }) :
    other ∈ tasks g ∨ other = task := by
  rcases (mem_tasks ..).mp member with ⟨from_,listed⟩ | stored
  · simp only [Injectors.get_set] at listed
    split at listed
    · rcases List.mem_append.mp listed with old | new
      · exact .inl ((mem_tasks ..).mpr (.inl ⟨lane,old⟩))
      · exact .inr (List.mem_singleton.mp new)
    · exact .inl ((mem_tasks ..).mpr (.inl ⟨from_,listed⟩))
  · exact .inl ((mem_tasks ..).mpr (.inr stored))

/-- A number summed over the messages a task carries for one actor. -/
def weight (f : Message → Nat) (a : ActorId) (task : Task) : Nat :=
  if task.actor_id = a then (task.messages.map f).sum else 0

/-- A number summed over the messages queued for one actor. -/
def queuedWeight (f : Message → Nat) (a : ActorId) (g : Shared) : Nat := ((tasks g).map (weight f a)).sum

theorem queuedWeight_congr (f : Message → Nat) (a : ActorId) {g g' : Shared} (injectors : g'.injectors = g.injectors)
    (deques : g'.deques = g.deques) : queuedWeight f a g' = queuedWeight f a g := by
  rw [queuedWeight,tasks_congr injectors deques,queuedWeight]

theorem queuedWeight_set (f : Message → Nat) (a : ActorId) {g g' : Shared} {lane : Lane} {after : List Task}
    (injectors : g'.injectors = g.injectors.set lane after) (deques : g'.deques = g.deques) :
    queuedWeight f a g' + ((g.injectors.get lane).map (weight f a)).sum =
      queuedWeight f a g + (after.map (weight f a)).sum := by
  cases lane <;>
    simp only [queuedWeight,tasks,injectors,deques,Injectors.set,Injectors.get,List.map_append,List.sum_append] <;>
    omega

theorem queuedWeight_take (f : Message → Nat) (a : ActorId) {g g' : Shared} {lane : Lane} {task : Task}
    {rest : List Task} (found : g.injectors.get lane = task :: rest)
    (injectors : g'.injectors = g.injectors.set lane rest) (deques : g'.deques = g.deques) :
    queuedWeight f a g' + weight f a task = queuedWeight f a g := by
  have moved := queuedWeight_set f a injectors deques
  rw [found] at moved
  simp only [List.map_cons,List.sum_cons] at moved
  omega

theorem queuedWeight_enqueue (f : Message → Nat) (a : ActorId) {g g' : Shared} {lane : Lane} {task : Task}
    (injectors : g'.injectors = g.injectors.set lane (g.injectors.get lane ++ [task]))
    (deques : g'.deques = g.deques) : queuedWeight f a g' = queuedWeight f a g + weight f a task := by
  have moved := queuedWeight_set f a injectors deques
  simp only [List.map_append,List.map_cons,List.map_nil,List.sum_append,List.sum_cons,List.sum_nil] at moved
  omega

/-! ## The hand of a worker -/

theorem finish_hand {job next : Job} (done : job.finish = some next) :
    next.actor_id = job.actor_id ∧ hand next = job.rest ∧ next.rest = job.rest := by
  unfold Job.finish at done
  split at done
  · cases done
    exact ⟨rfl,rfl,rfl⟩
  · split at done
    · cases done
      exact ⟨rfl,rfl,rfl⟩
    · cases done

theorem rest_in_hand {job : Job} {m : Message} (member : m ∈ job.rest) : m ∈ hand job := by
  unfold hand
  split <;> simp [member]

/-- A job goes on with what it has in hand, or with a message it drains. -/
theorem job_hand {config : SchedulerConfig} {g g' : Shared} {job next : Job} {execution : Execution}
    (steps : job.step config g execution = (g',some next)) :
    next.actor_id = job.actor_id ∧ ∀ m ∈ hand next, m ∈ hand job ∨
      ∃ mb, g.registry.mailboxes.lookup job.actor_id = some mb ∧ mb.try_recv.2 = some m := by
  obtain ⟨id,batch,rest,depth,stage⟩ := job
  have move := job_move steps
  generalize after : some next = result at move
  cases move with
  | absent | unboxed | releases | fail_unboxed | fail_clears | unwoken | drain_unboxed | drain_ends | pop_ends
    | requeue_unboxed | requeue_pushes =>
    obtain ⟨same,rest,-⟩ := finish_hand after.symm
    exact ⟨same,fun m member => .inl (rest_in_hand (rest ▸ member))⟩
  | @handled m change =>
    cases after
    have later : hand ⟨id,batch,rest,depth,.after change⟩ = rest := by cases change <;> rfl
    exact ⟨rfl,fun _ member => .inl (List.mem_cons_of_mem _ (later ▸ member))⟩
  | fails | panics | control_assigns | control_ignored =>
    cases after
    exact ⟨rfl,fun _ member => .inl (List.mem_cons_of_mem _ member)⟩
  | pops found received =>
    cases after
    refine ⟨rfl,fun m member => ?_⟩
    rcases List.mem_cons.mp member with rfl | later
    · exact .inr ⟨_,found,received⟩
    · exact .inl later
  | batch_next viable more =>
    cases after
    subst more
    exact ⟨rfl,fun _ member => .inl member⟩
  | batch_abandoned | batch_done | panic_unboxed | panic_clears => cases after
  | _ =>
    cases after
    exact ⟨rfl,fun _ member => .inl member⟩

/-! ## The messages of a send -/

theorem pushing_next (kind : SendKind) (target : ActorId) (pushed : List Message) (m : Message)
    (remaining : List Message) (a : ActorId) :
    pushedBy a (.pushing kind target (pushed ++ [m]) remaining) = (if target = a then pushed ++ [m] else []) ∧
      unsent a (.pushing kind target (pushed ++ [m]) remaining) = (if target = a then remaining else []) ∧
      meddles (.pushing kind target (pushed ++ [m]) remaining) = none := by
  cases remaining with
  | nil => cases pushed <;> simp [Client.pushing,pushedBy,unsent,meddles]
  | cons => simp [Client.pushing,pushedBy,unsent,meddles]

theorem enter_unpushed (g : Shared) (call : Call) (a : ActorId) : pushedBy a (Client.enter g call).2 = [] := by
  unfold Client.enter
  split <;> (try split) <;> rfl

/-- A `send` or `try_send` has one message. -/
def Single : Client → Prop
  | .admit_message kind _ messages | .get_mailbox kind _ messages | .get_state kind _ messages =>
    kind ≠ .send_batch → messages.length = 1
  | .push kind _ pushed _ remaining => kind ≠ .send_batch → pushed = [] ∧ remaining = []
  | _ => True

theorem single_pushing (kind : SendKind) (target : ActorId) {messages : List Message}
    (one : kind ≠ .send_batch → messages.length = 1) : Single (.pushing kind target [] messages) := by
  cases messages with
  | nil => trivial
  | cons m rest => exact fun other => ⟨rfl,List.length_eq_zero_iff.mp (by simpa using one other)⟩

theorem single_step {config : SchedulerConfig} {g g' : Shared} {i : Nat} {call : Call} {admitted : Bool} {c c' : Client}
    (steps : c.step config g i call admitted = some (g',c')) (single : Single c) : Single c' := by
  cases c with
  | idle =>
    have entered : Client.enter g call = (g',c') := Option.some.inj steps
    have goes : Single (Client.enter g call).2 := by
      unfold Client.enter
      split
      · exact fun _ => rfl
      · split
        · trivial
        · exact fun batch => absurd rfl batch
      · exact fun _ => rfl
      · trivial
      · trivial
    rw [entered] at goes
    exact goes
  | admit_message kind target messages =>
    cases steps
    cases admitted
    · trivial
    · exact single
  | get_mailbox kind target messages =>
    simp only [Client.step] at steps
    split at steps
    · cases steps; trivial
    · split at steps <;> cases steps
      · exact single
      · exact single
      · exact single_pushing _ _ single
  | get_state kind target messages =>
    have goes : Single (.pushing kind target [] messages) := single_pushing kind target single
    simp only [Client.step] at steps
    split at steps <;> cases steps
    · trivial
    · trivial
    all_goals exact goes
  | push kind target pushed m remaining =>
    simp only [Client.step] at steps
    split at steps
    · cases steps
    · split at steps
      · cases steps
      · cases steps; trivial
      · cases steps
        cases remaining with
        | nil => cases pushed <;> trivial
        | cons next remaining => exact fun other => absurd (single other).2 (by simp)
  | enqueue | set_state | kill_clear | kill_unregister =>
    cases steps
    trivial
  | kill | kill_mailbox =>
    simp only [Client.step] at steps
    split at steps <;> cases steps <;> trivial

theorem single_reach {config : SchedulerConfig} {n : Nat} {ok : System → Label → Prop} {s : System}
    (reached : Reach System.step ok (.init config n) s) : ∀ c ∈ s.clients, Single c := by
  induction reached with
  | start =>
    intro c member
    rw [List.eq_of_mem_replicate member]
    trivial
  | @next s _ label _ _ stepped single =>
    have changed : ∀ (i : Nat) (c : Client), Single c → ∀ other ∈ s.clients.set i c, Single other := by
      intro i c good other member
      rcases List.mem_or_eq_of_mem_set member with old | rfl
      · exact single other old
      · exact good
    cases label with
    | worker =>
      obtain ⟨_,_,rest⟩ := Option.bind_eq_some_iff.mp stepped
      obtain ⟨_,_,same⟩ := Option.bind_eq_some_iff.mp rest
      cases same
      exact single
    | client =>
      obtain ⟨c,found,rest⟩ := Option.bind_eq_some_iff.mp stepped
      obtain ⟨_,steps,same⟩ := Option.bind_eq_some_iff.mp rest
      cases same
      exact changed _ _ (single_step steps (single c (List.mem_of_getElem? found)))
    | drop_send =>
      simp only [System.step] at stepped
      split at stepped <;> cases stepped <;> exact changed _ _ trivial
    | spawn =>
      simp only [System.step] at stepped
      split at stepped <;> cases stepped
      exact single
    | receive | start_worker | set_running => cases stepped; exact single

/-! ## Only accepted messages -/

/-- What is found in a mailbox after a call of a job was there before or in the
    hand of the job. -/
theorem effect_contents {config : MailboxConfig} (fits : config.capacity < 2 ^ 64) {id : ActorId}
    {messages : List Message} {g g' : Shared} (kept : Kept config g.registry) (effect : Effect id messages g g')
    {mb' : Mailbox} (found : g'.registry.mailboxes.lookup id = some mb') {m : Message} (stored : m ∈ contents mb') :
    m ∈ messages ∨ ∃ mb, g.registry.mailboxes.lookup id = some mb ∧ m ∈ contents mb := by
  have rewritten : ∀ f : Mailbox → Mailbox, (g.on_mailbox id f).registry.mailboxes.lookup id = some mb' →
      ∃ mb, g.registry.mailboxes.lookup id = some mb ∧ f mb = mb' := by
    intro f here
    simp only [Shared.on_mailbox,ActorRegistry.on_mailbox,Dict.lookup_modify,if_true] at here
    exact Option.map_eq_some_iff.mp here
  cases effect with
  | nothing | requeued | executed | counted => exact .inr ⟨mb',found,stored⟩
  | @state state =>
    rw [Shared.set_state,(set_state_mailboxes g.registry id state).1] at found
    exact .inr ⟨mb',found,stored⟩
  | received =>
    obtain ⟨mb,here,rfl⟩ := rewritten _ found
    refine .inr ⟨mb,here,?_⟩
    by_cases empty : contents mb = []
    · rwa [try_recv_empty empty] at stored
    · obtain ⟨after,first,taken,-,split⟩ := try_recv_takes fits (kept.sound id mb here) empty
      rw [taken] at stored
      rw [split]
      exact List.mem_cons_of_mem _ stored
  | cleared =>
    obtain ⟨mb,here,rfl⟩ := rewritten _ found
    rw [(clear_sound fits (kept.sound id mb here)).2] at stored
    cases stored
  | @returned returned inHand =>
    obtain ⟨mb,here,rfl⟩ := rewritten _ found
    rcases try_send_stores fits (kept.sound id mb here) returned with ⟨-,refused⟩ | ⟨after,sent,-,perm⟩
    · rw [refused] at stored
      exact .inr ⟨mb,here,stored⟩
    · rw [sent] at stored
      rcases List.mem_cons.mp (perm.mem_iff.mp stored) with rfl | old
      · exact .inl inHand
      · exact .inr ⟨mb,here,old⟩

/-- A receive hands out a stored message. -/
theorem received_stored {config : MailboxConfig} (fits : config.capacity < 2 ^ 64) {mb : Mailbox}
    (sound : Sound config mb) {m : Message} (received : mb.try_recv.2 = some m) : m ∈ contents mb := by
  by_cases empty : contents mb = []
  · rw [try_recv_empty empty] at received
    cases received
  · obtain ⟨after,first,taken,-,split⟩ := try_recv_takes fits sound empty
    rw [taken] at received
    cases received
    rw [split]
    exact List.mem_cons_self

/-- Everything found for an actor was accepted for it. -/
structure Accepted (a : ActorId) (s : System) : Prop where
  pushed : ∀ c ∈ s.clients, ∀ m ∈ pushedBy a c, (a,m) ∈ s.shared.history.accepted
  queued : ∀ task ∈ tasks s.shared, task.actor_id = a → ∀ m ∈ task.messages, (a,m) ∈ s.shared.history.accepted
  held : ∀ w ∈ s.workers, ∀ job, holding w = some job → job.actor_id = a →
    ∀ m ∈ hand job, (a,m) ∈ s.shared.history.accepted
  stored : ∀ mb, s.shared.registry.mailboxes.lookup a = some mb → ∀ m ∈ contents mb, (a,m) ∈ s.shared.history.accepted

theorem accepted_init (config : SchedulerConfig) (n : Nat) (a : ActorId) : Accepted a (.init config n) := by
  refine ⟨?_,?_,?_,?_⟩
  · intro c member
    rw [List.eq_of_mem_replicate member]
    intro m none
    cases none
  · intro task member; cases member
  · intro w member; cases member
  · intro mb found; cases found

/-- A step only adds to what was accepted. -/
theorem accepted_grows {s s' : System} {label : Label} (move : Move s label s') :
    ∀ e ∈ s.shared.history.accepted, e ∈ s'.shared.history.accepted := by
  cases move with
  | worker _ moves =>
    cases moves with
    | look | take => exact fun _ member => member
    | @work _ job _ _ steps =>
      have frame := effect_frame (step_effect steps)
      intro e member
      rw [frame.accepted]
      exact member
  | client _ moves =>
    cases moves with
    | enter =>
      obtain ⟨next,same⟩ := enter_frame s.shared _
      rw [same]
      exact fun _ member => member
    | accept => exact fun _ member => List.mem_append_left _ member
    | _ => exact fun _ member => member
  | _ => exact fun _ member => member

/-- The stored messages after a call on the mailbox of one actor. -/
theorem stored_on_mailbox {g : Shared} {id a : ActorId} {f : Mailbox → Mailbox} {mb' : Mailbox}
    (found : (g.on_mailbox id f).registry.mailboxes.lookup a = some mb') :
    ∃ mb, g.registry.mailboxes.lookup a = some mb ∧ (mb' = mb ∨ (a = id ∧ mb' = f mb)) := by
  simp only [Shared.on_mailbox,ActorRegistry.on_mailbox,Dict.lookup_modify] at found
  split at found
  · next same =>
    obtain ⟨mb,here,rfl⟩ := Option.map_eq_some_iff.mp found
    exact ⟨mb,here,.inr ⟨same,rfl⟩⟩
  · exact ⟨mb',found,.inl rfl⟩

/-- One client goes on; the others have pushed what they had pushed. -/
theorem pushed_set {s : System} {a : ActorId} {i : Nat} {c : Client} {accepted : List (ActorId × Message)}
    (before : ∀ c ∈ s.clients, ∀ m ∈ pushedBy a c, (a,m) ∈ accepted)
    (own : ∀ m ∈ pushedBy a c, (a,m) ∈ accepted) : ∀ other ∈ s.clients.set i c, ∀ m ∈ pushedBy a other, (a,m) ∈ accepted := by
  intro other member
  rcases List.mem_or_eq_of_mem_set member with old | rfl
  · exact before other old
  · exact own

theorem accepted_worker {s : System} {a : ActorId} {i : Nat} {execution : Execution} {w w' : Worker} {g' : Shared}
    (fits : s.config.mailbox_config.capacity < 2 ^ 64) (sane : Sane s) (inv : Accepted a s)
    (found : s.workers[i]? = some w) (moves : WorkerMove s.config s.shared w execution g' w') :
    Accepted a { s with shared := g', workers := s.workers.set i w' } := by
  have member := List.mem_of_getElem? found
  have others : ∀ {accepted : List (ActorId × Message)}, accepted = s.shared.history.accepted →
      (∀ job, holding w' = some job → job.actor_id = a → ∀ m ∈ hand job, (a,m) ∈ accepted) →
      ∀ other ∈ s.workers.set i w', ∀ job, holding other = some job → job.actor_id = a →
        ∀ m ∈ hand job, (a,m) ∈ accepted := by
    rintro _ rfl own other listed
    rcases List.mem_or_eq_of_mem_set listed with old | rfl
    · exact inv.held other old
    · exact own
  cases moves with
  | look free still => exact ⟨inv.pushed,inv.queued,others rfl (by simp [still]),inv.stored⟩
  | @take _ lane task rest free head holds =>
    obtain ⟨listed,subset⟩ := tasks_take head
    refine ⟨inv.pushed,fun other queued => inv.queued other (subset other queued),others rfl ?_,inv.stored⟩
    intro job same target m inHand
    rw [holds] at same
    cases same
    exact inv.queued task listed target m inHand
  | @work _ job _ holds steps =>
    have effect := step_effect steps
    have frame := effect_frame effect
    have same := frame.accepted
    refine ⟨?_,?_,others same ?_,?_⟩
    · intro c listed m pushed
      rw [same]; exact inv.pushed c listed m pushed
    · intro task queued
      rw [same]
      exact inv.queued task (by rw [← tasks_congr frame.injectors frame.deques]; exact queued)
    · intro next goes target m inHand
      rw [goes] at steps
      obtain ⟨sameActor,from_⟩ := job_hand steps
      have mine : job.actor_id = a := sameActor.symm.trans target
      rw [same]
      rcases from_ m inHand with old | ⟨mb,here,received⟩
      · exact inv.held w member job holds mine m old
      · exact inv.stored mb (mine ▸ here) m (received_stored fits (sane.registry.sound _ _ here) received)
    · intro mb' here m stored
      rw [same]
      by_cases mine : a = job.actor_id
      · rcases effect_contents fits sane.registry effect (mine ▸ here) stored with inHand | ⟨mb,before,old⟩
        · exact inv.held w member job holds mine.symm m inHand
        · exact inv.stored mb (mine ▸ before) m old
      · exact inv.stored mb' (by rw [← frame.mailboxes a mine]; exact here) m stored

theorem accepted_client {s : System} {a : ActorId} {i : Nat} {call : Call} {c c' : Client} {g' : Shared}
    (fits : s.config.mailbox_config.capacity < 2 ^ 64) (sane : Sane s) (inv : Accepted a s)
    (found : s.clients[i]? = some c) (moves : ClientMove s.config s.shared i call c g' c') :
    Accepted a { s with shared := g', clients := s.clients.set i c' } := by
  have member := List.mem_of_getElem? found
  cases moves with
  | enter =>
    obtain ⟨next,same⟩ := enter_frame s.shared call
    rw [same]
    refine ⟨pushed_set inv.pushed ?_,inv.queued,inv.held,inv.stored⟩
    rw [enter_unpushed]
    intro m none
    cases none
  | look before after _ _ _ =>
    refine ⟨pushed_set inv.pushed ?_,inv.queued,inv.held,inv.stored⟩
    rw [after]
    intro m none
    cases none
  | @accept kind target pushed remaining m mb mb' here pushes =>
    obtain ⟨-,perm,-⟩ := push_one_sound fits (sane.registry.sound _ _ here) pushes
    have own := inv.pushed _ member
    have grows : ∀ {e}, e ∈ s.shared.history.accepted → e ∈ s.shared.history.accepted ++ [(target,m)] :=
      fun old => List.mem_append_left _ old
    refine ⟨pushed_set (fun c listed m pushed => grows (inv.pushed c listed m pushed)) ?_,
      fun task queued mine m listed => grows (inv.queued task queued mine m listed),
      fun w listed job holds mine m inHand => grows (inv.held w listed job holds mine m inHand),?_⟩
    · rw [(pushing_next kind target pushed m remaining a).1]
      intro m' listed
      split at listed
      · next mine =>
        rcases List.mem_append.mp listed with old | new
        · exact grows (own m' (by simp [pushedBy,mine,old]))
        · cases List.mem_singleton.mp new
          exact List.mem_append_right _ (by simp [mine])
      · cases listed
    · intro after lookup m' stored
      obtain ⟨before,old,same | ⟨mine,same⟩⟩ := stored_on_mailbox lookup
      · exact grows (inv.stored before old m' (same ▸ stored))
      · subst mine same
        rw [here] at old
        cases old
        rcases List.mem_cons.mp ((perm rfl).mem_iff.mp stored) with rfl | older
        · exact List.mem_append_right _ (by simp)
        · exact grows (inv.stored mb here m' older)
  | @refuse kind target pushed remaining m mb mb' here pushes =>
    obtain ⟨-,-,same⟩ := push_one_sound fits (sane.registry.sound _ _ here) pushes
    obtain ⟨rfl,-,-⟩ := same rfl
    refine ⟨pushed_set inv.pushed (fun m none => by cases none),inv.queued,inv.held,?_⟩
    intro after lookup m' stored
    obtain ⟨before,old,same | ⟨mine,same⟩⟩ := stored_on_mailbox lookup
    · exact inv.stored before old m' (same ▸ stored)
    · subst mine same
      exact inv.stored _ here m' stored
  | @enqueue target first additional =>
    have own := inv.pushed _ member
    refine ⟨pushed_set inv.pushed (fun m none => by cases none),?_,inv.held,inv.stored⟩
    intro task queued mine m listed
    rcases tasks_enqueue queued with old | rfl
    · exact inv.queued task old mine m listed
    · have same : target = a := mine
      exact own m (by simpa [pushedBy,same,task_of,Task.messages] using listed)
  | @set_state id state =>
    refine ⟨pushed_set inv.pushed (fun m none => by cases none),inv.queued,inv.held,?_⟩
    rw [Shared.set_state,(set_state_mailboxes s.shared.registry id state).1]
    exact inv.stored
  | @kill id =>
    refine ⟨pushed_set inv.pushed (fun m none => by cases none),inv.queued,inv.held,?_⟩
    rw [Shared.set_state,(set_state_mailboxes s.shared.registry id .Stopped).1]
    exact inv.stored
  | @clear id =>
    refine ⟨pushed_set inv.pushed (fun m none => by cases none),inv.queued,inv.held,?_⟩
    intro after lookup m' stored
    obtain ⟨before,old,same | ⟨mine,same⟩⟩ := stored_on_mailbox lookup
    · exact inv.stored before old m' (same ▸ stored)
    · rw [same,(clear_sound fits (sane.registry.sound _ _ old)).2] at stored
      cases stored
  | @unregister id =>
    refine ⟨pushed_set inv.pushed (fun m none => by cases none),inv.queued,inv.held,?_⟩
    simp only [unregister_mailboxes]
    exact inv.stored

theorem accepted_step {s s' : System} {label : Label} {a : ActorId}
    (fits : s.config.mailbox_config.capacity < 2 ^ 64) (sane : Sane s) (inv : Accepted a s) (move : Move s label s') :
    Accepted a s' := by
  cases move with
  | worker found moves => exact accepted_worker fits sane inv found moves
  | client found moves => exact accepted_client fits sane inv found moves
  | drop_send found =>
    exact ⟨pushed_set inv.pushed (fun m none => by cases none),inv.queued,inv.held,inv.stored⟩
  | @spawn id name fresh =>
    refine ⟨inv.pushed,inv.queued,inv.held,?_⟩
    rcases register_cases s.shared.registry id name with same | ⟨-,by_name,added⟩
    · simp only [same]; exact inv.stored
    · simp only [added,Dict.lookup_insert_ite]
      intro mb lookup
      split at lookup
      · cases lookup
        intro m none
        cases none
      · exact inv.stored mb lookup
  | @receive id =>
    refine ⟨inv.pushed,inv.queued,inv.held,?_⟩
    intro after lookup m stored
    by_cases mine : a = id
    · subst mine
      rcases effect_contents fits sane.registry (.received : Effect a [] s.shared _) lookup stored with none | ⟨mb,here,old⟩
      · cases none
      · exact inv.stored mb here m old
    · obtain ⟨before,old,same | ⟨same,-⟩⟩ := stored_on_mailbox lookup
      · exact inv.stored before old m (same ▸ stored)
      · exact absurd same mine
  | start_worker free =>
    refine ⟨inv.pushed,?_,?_,inv.stored⟩
    · intro task queued
      refine inv.queued task ?_
      simpa [tasks] using queued
    · intro w member job holds
      rcases List.mem_append.mp member with old | new
      · exact inv.held w old job holds
      · rw [List.mem_singleton.mp new,free] at holds
        cases holds
  | set_running => exact ⟨inv.pushed,inv.queued,inv.held,inv.stored⟩

/-- In every run everything found for an actor was accepted for it. -/
theorem accepted_reach {config : SchedulerConfig} (fits : config.mailbox_config.capacity < 2 ^ 64) {n : Nat}
    {ok : System → Label → Prop} {s : System} (a : ActorId) (reached : Reach System.step ok (.init config n) s) :
    Accepted a s := by
  induction reached with
  | start => exact accepted_init config n a
  | next before _ stepped ih =>
    obtain ⟨same,sane⟩ := sane_reach fits before
    exact accepted_step (by rw [same]; exact fits) sane ih (step_move sane.toNoLocal stepped).1

end ActorKit.Inventory
