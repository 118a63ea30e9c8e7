import ActorKit.Moves
import ActorKit.Lib.Handover

/-!
# What a kill leaves behind

`kill` unregisters an actor while workers and senders that looked it up before
are still under way. From then on the actor stays unregistered, the only messages
still executed are those that a worker had let past the check of the state, and
the only messages still accepted are those of sends that already hold the
mailbox.
-/

namespace ActorKit.Killed
open ActorKit.mailbox ActorKit.registry ActorKit.queue ActorKit.scheduler ActorKit.Moves ActorKit.Transition
open ActorKit.Handover (flatMap_set handed_out)

/-- The messages of an actor in a log. -/
def ofActor (a : ActorId) (log : List (ActorId × Message)) : List Message := (log.filter (fun e => e.1 = a)).map (·.2)

@[simp] theorem ofActor_append (a : ActorId) (log more : List (ActorId × Message)) :
    ofActor a (log ++ more) = ofActor a log ++ ofActor a more := by
  simp [ofActor]

@[simp] theorem ofActor_one (a id : ActorId) (m : Message) : ofActor a [(id,m)] = if id = a then [m] else [] := by
  by_cases same : id = a <;> simp [ofActor,same]

/-- The message of an actor that a job has let past the check of the state. -/
def begunIn (a : ActorId) : Option Job → List Message
  | some ⟨id,_,_,_,.execute m⟩ => if id = a then [m] else []
  | _ => []

def begunBy (a : ActorId) (w : Worker) : List Message := begunIn a (holding w)

/-- The messages of an actor that are about to be executed. -/
def begun (a : ActorId) (s : System) : List Message := s.workers.flatMap (begunBy a)

/-- What a send holds for an actor whose mailbox it has already looked up. -/
def heldBy (a : ActorId) : Client → List Message
  | .get_state _ target messages => if target = a then messages else []
  | .push _ target _ message remaining => if target = a then message :: remaining else []
  | _ => []

/-- The messages that such sends have still to push. -/
def held (a : ActorId) (s : System) : List Message := s.clients.flatMap (heldBy a)

/-- An actor that was unregistered. Its mailbox stays with those who hold it. -/
structure Gone (a : ActorId) (s : System) : Prop extends NoLocal s where
  absent : s.shared.registry.by_id.lookup a = none
  boxed : (s.shared.registry.mailboxes.lookup a).isSome

theorem Gone.stateless {a : ActorId} {s : System} (gone : Gone a s) : s.shared.registry.get_state a = none := by
  simp [ActorRegistry.get_state,gone.absent]

theorem Gone.unboxed {a : ActorId} {s : System} (gone : Gone a s) : s.shared.registry.get_mailbox a = none := by
  simp [ActorRegistry.get_mailbox,gone.absent]

/-! ## What is executed -/

theorem finish_begun (a : ActorId) (job : Job) : begunIn a job.finish = [] := by
  unfold Job.finish
  split
  · rfl
  · split <;> rfl

theorem after_begun (a id : ActorId) (batch : Bool) (rest : List Message) (depth : Nat) (change : Option ActorState) :
    begunIn a (some ⟨id,batch,rest,depth,.after change⟩) = [] := by
  cases change <;> rfl

/-- A call for an unregistered actor executes the message that was begun, or
    nothing; for another actor it executes nothing of this one. -/
theorem job_executes {config : SchedulerConfig} {g g' : Shared} {job : Job} {next : Option Job} {execution : Execution}
    {a : ActorId} (absent : g.registry.get_state a = none) (steps : job.step config g execution = (g',next)) :
    ∃ given, ofActor a g'.history.executed = ofActor a g.history.executed ++ given ∧
      begunIn a (some job) = given ++ begunIn a next := by
  obtain ⟨id,batch,rest,depth,stage⟩ := job
  -- The executed message leaves the job.
  have executed : ∀ m next, begunIn a next = [] →
      ∃ given, ofActor a (g.log_executed id m).history.executed = ofActor a g.history.executed ++ given ∧
        begunIn a (some ⟨id,batch,rest,depth,.execute m⟩) = given ++ begunIn a next := by
    intro m next empty
    refine ⟨if id = a then [m] else [],by simp [Shared.log_executed],?_⟩
    rw [empty,List.append_nil]
    rfl
  cases job_move steps with
  | @awake m active =>
    refine ⟨[],by simp,?_⟩
    by_cases mine : id = a
    · subst mine
      simp [absent] at active
    · simp [begunIn,mine]
  | handled => exact executed _ _ (after_begun a id batch rest depth _)
  | fails | panics => exact executed _ _ rfl
  | absent | unboxed | releases | fail_unboxed | fail_clears | unwoken | drain_unboxed | drain_ends | pop_ends
    | requeue_unboxed | requeue_pushes => exact ⟨[],by simp [Shared.on_mailbox],by rw [finish_begun]; rfl⟩
  | _ => exact ⟨[],by simp [Shared.on_mailbox,Shared.set_state,Shared.log_requeued],rfl⟩

/-! ## What is accepted -/

theorem pushing_held (a : ActorId) (kind : SendKind) (target : ActorId) (pushed messages : List Message) :
    heldBy a (.pushing kind target pushed messages) = if target = a then messages else [] := by
  cases messages with
  | cons message remaining => rfl
  | nil => cases pushed <;> exact (ite_self _).symm

theorem enter_held (a : ActorId) (g : Shared) (call : Call) : heldBy a (Client.enter g call).2 = [] := by
  unfold Client.enter
  split <;> (try split) <;> rfl

/-- A call of a send that holds the mailbox pushes the next message, goes on or
    gives up; no other call comes to hold the mailbox of an unregistered actor. -/
theorem client_accepts {config : SchedulerConfig} {g g' : Shared} {i : Nat} {call : Call} {admitted : Bool} {c c' : Client}
    {a : ActorId} (unboxed : g.registry.get_mailbox a = none) (steps : c.step config g i call admitted = some (g',c')) :
    ∃ given lost, ofActor a g'.history.accepted = ofActor a g.history.accepted ++ given ∧
      heldBy a c = given ++ heldBy a c' ++ lost := by
  cases c with
  | idle =>
    have entered : Client.enter g call = (g',c') := Option.some.inj steps
    obtain ⟨next,same⟩ := enter_frame g call
    rw [entered] at same
    have free := enter_held a g call
    rw [entered] at free
    exact ⟨[],[],by simp [show g' = _ from same],by rw [show heldBy a c' = [] from free]; rfl⟩
  | admit_message kind target messages =>
    cases steps
    cases admitted <;> exact ⟨[],[],by simp,rfl⟩
  | get_mailbox kind target messages =>
    refine ⟨[],[],?_,?_⟩ <;> simp only [Client.step] at steps <;> split at steps
    · cases steps
      simp
    · split at steps <;> cases steps <;> simp
    · cases steps
      rfl
    · next mb found =>
      have other : target ≠ a := by
        rintro rfl
        rw [unboxed] at found
        cases found
      split at steps <;> cases steps
      · simp [heldBy,other]
      · simp [heldBy,other]
      · rw [pushing_held,if_neg other]
        rfl
  | get_state kind target messages =>
    simp only [Client.step] at steps
    split at steps <;> cases steps
    · exact ⟨[],heldBy a (.get_state kind target messages),by simp,rfl⟩
    · exact ⟨[],heldBy a (.get_state kind target messages),by simp,rfl⟩
    all_goals exact ⟨[],[],by simp,by rw [pushing_held]; simp [heldBy]⟩
  | push kind target pushed message remaining =>
    simp only [Client.step] at steps
    split at steps
    · cases steps
    · split at steps
      · cases steps
      · cases steps
        exact ⟨[],heldBy a (.push kind target pushed message remaining),by simp [Shared.on_mailbox],rfl⟩
      · cases steps
        refine ⟨if target = a then [message] else [],[],by simp,?_⟩
        rw [pushing_held]
        by_cases mine : target = a <;> simp [heldBy,mine]
  | enqueue target first additional =>
    cases steps
    exact ⟨[],[],by simp,rfl⟩
  | set_state id state =>
    cases steps
    exact ⟨[],[],by simp [Shared.set_state],rfl⟩
  | kill id =>
    simp only [Client.step] at steps
    split at steps <;> cases steps <;> exact ⟨[],[],by simp [Shared.set_state],rfl⟩
  | kill_mailbox id =>
    simp only [Client.step] at steps
    split at steps <;> cases steps <;> exact ⟨[],[],by simp,rfl⟩
  | kill_clear id =>
    cases steps
    exact ⟨[],[],by simp [Shared.on_mailbox],rfl⟩
  | kill_unregister id =>
    cases steps
    exact ⟨[],[],by simp,rfl⟩

/-! ## A killed actor stays away -/

/-- No call of a client registers an actor or drops a mailbox. -/
theorem client_registry {config : SchedulerConfig} {g g' : Shared} {i : Nat} {call : Call} {c c' : Client} (a : ActorId)
    (moves : ClientMove config g i call c g' c') :
    (g.registry.by_id.lookup a = none → g'.registry.by_id.lookup a = none) ∧
      (g'.registry.mailboxes.lookup a).isSome = (g.registry.mailboxes.lookup a).isSome := by
  have stated : ∀ id state, (g.registry.by_id.lookup a = none → (g.set_state id state).registry.by_id.lookup a = none) ∧
      ((g.set_state id state).registry.mailboxes.lookup a).isSome = (g.registry.mailboxes.lookup a).isSome := by
    intro id state
    refine ⟨fun absent => ?_,effect_present (.state : Effect id [] _ _) a⟩
    have present := present_set_state g.registry id state a
    rw [absent] at present
    simpa [Shared.set_state] using present
  cases moves with
  | enter =>
    obtain ⟨next,same⟩ := enter_frame g call
    rw [same]
    exact ⟨fun absent => absent,rfl⟩
  | look | enqueue => exact ⟨fun absent => absent,rfl⟩
  | accept | refuse | clear => exact ⟨fun absent => absent,on_mailbox_present g _ _ a⟩
  | set_state | kill => exact stated _ _
  | @unregister id =>
    refine ⟨fun absent => ?_,by rw [unregister_mailboxes]⟩
    by_cases same : a = id
    · subst same
      simp [ActorRegistry.unregister,absent]
    · exact (unregister_other g.registry same).trans absent

/-- Mailboxes are never dropped. -/
theorem boxed_step {s s' : System} {label : Label} {a : ActorId} (move : Move s label s')
    (boxed : (s.shared.registry.mailboxes.lookup a).isSome) : (s'.shared.registry.mailboxes.lookup a).isSome := by
  cases move with
  | worker found moves =>
    cases moves with
    | look | take => exact boxed
    | work holds steps => exact (effect_present (step_effect steps) a).trans boxed
  | client found moves => exact ((client_registry a moves).2).trans boxed
  | drop_send | start_worker | set_running => exact boxed
  | receive => exact (on_mailbox_present s.shared _ _ a).trans boxed
  | @spawn id name fresh =>
    rcases register_cases s.shared.registry id name with same | ⟨absent,by_name,added⟩
    · rw [same]
      exact boxed
    · rw [added]
      simp only [Dict.lookup_insert_ite]
      split
      · rfl
      · exact boxed

theorem gone_step {s s' : System} {label : Label} {a : ActorId} (gone : Gone a s) (stepped : s.step label = some s') :
    Gone a s' := by
  obtain ⟨move,noLocal⟩ := step_move gone.toNoLocal stepped
  refine ⟨noLocal,?_,boxed_step move gone.boxed⟩
  cases move with
  | worker found moves =>
    cases moves with
    | look | take => exact gone.absent
    | @work _ job _ holds steps =>
      have present := (effect_frame (step_effect steps)).present a
      rw [gone.absent] at present
      simpa using present
  | client found moves => exact (client_registry a moves).1 gone.absent
  | drop_send | start_worker | set_running | receive => exact gone.absent
  | @spawn id name fresh =>
    have other : a ≠ id := by
      rintro rfl
      have boxed := gone.boxed
      simp [fresh] at boxed
    rcases register_cases s.shared.registry id name with same | ⟨-,by_name,added⟩
    · rw [same]
      exact gone.absent
    · rw [added]
      simpa [other] using gone.absent

/-! ## The messages that are left -/

/-- One step hands out what was begun, and nothing else. -/
theorem executes_step {s s' : System} {label : Label} {a : ActorId} (gone : Gone a s) (stepped : s.step label = some s') :
    ∃ given, ofActor a s'.shared.history.executed = ofActor a s.shared.history.executed ++ given ∧
      (given ++ begun a s').Perm (begun a s) := by
  have nothing : ∀ {w w' : Worker} {i : Nat}, s.workers[i]? = some w → begunBy a w = [] → begunBy a w' = [] →
      ((s.workers.set i w').flatMap (begunBy a)).Perm (begun a s) := by
    intro w w' i found before after
    have splits : (begunBy a w).Perm ([] ++ begunBy a w' ++ []) := by simp [before,after]
    simpa [begun] using flatMap_set found splits
  obtain ⟨move,-⟩ := step_move gone.toNoLocal stepped
  cases move with
  | @worker i execution moved w w' g' found moves =>
    cases moves with
    | look free still =>
      exact ⟨[],by simp,nothing found (by simp [begunBy,begunIn,free]) (by simp [begunBy,begunIn,still])⟩
    | take free head holds pops =>
      exact ⟨[],by simp [Shared.log_taken],
        nothing found (by simp [begunBy,begunIn,free]) (by simp [begunBy,begunIn,holds,Job.start])⟩
    | work holds steps =>
      obtain ⟨given,grown,split⟩ := job_executes gone.stateless steps
      refine ⟨given,grown,?_⟩
      have splits : (begunBy a w).Perm (given ++ begunBy a w' ++ []) := by
        rw [begunBy,holds,split,List.append_nil]
        exact .refl _
      simpa [begun] using flatMap_set found splits
  | @client i call admitted c c' g' found moves =>
    refine ⟨[],?_,.refl _⟩
    cases moves with
    | @enter =>
      obtain ⟨next,same⟩ := enter_frame s.shared call
      simp [same]
    | _ => simp [Shared.on_mailbox,Shared.set_state]
  | drop_send | spawn | set_running => exact ⟨[],by simp,.refl _⟩
  | receive => exact ⟨[],by simp [Shared.on_mailbox],.refl _⟩
  | start_worker free => exact ⟨[],by simp,by simp [begun,begunBy,begunIn,free]⟩

/-- One step hands out what sends hold, or drops it. -/
theorem accepts_step {s s' : System} {label : Label} {a : ActorId} (gone : Gone a s) (stepped : s.step label = some s') :
    ∃ given, ofActor a s'.shared.history.accepted = ofActor a s.shared.history.accepted ++ given ∧
      (given ++ held a s').Subperm (held a s) := by
  cases label with
  | client i call admitted =>
    obtain ⟨c,found,rest⟩ := Option.bind_eq_some_iff.mp stepped
    obtain ⟨⟨g',c'⟩,steps,same⟩ := Option.bind_eq_some_iff.mp rest
    cases same
    obtain ⟨given,lost,grown,split⟩ := client_accepts gone.unboxed steps
    refine ⟨given,grown,?_⟩
    have handed := flatMap_set found (.of_eq split)
    exact (List.sublist_append_left _ lost).subperm.trans handed.subperm
  | worker i execution moved =>
    obtain ⟨move,-⟩ := step_move gone.toNoLocal stepped
    refine ⟨[],?_,?_⟩
    · cases move with
      | worker found moves =>
        cases moves with
        | look | take => simp [Shared.log_taken]
        | work holds steps => simp [(effect_frame (step_effect steps)).accepted]
    · cases move with
      | worker => exact .refl _
  | drop_send i =>
    obtain ⟨move,-⟩ := step_move gone.toNoLocal stepped
    cases move with
    | @drop_send i kind target pushed remaining message found =>
      refine ⟨[],by simp,?_⟩
      have drops : (heldBy a (.push kind target pushed message remaining)).Perm
          ([] ++ heldBy a .idle ++ heldBy a (.push kind target pushed message remaining)) := .refl _
      exact (List.sublist_append_left _ _).subperm.trans (flatMap_set found drops).subperm
  | spawn id name =>
    obtain ⟨move,-⟩ := step_move gone.toNoLocal stepped
    cases move with
    | spawn => exact ⟨[],by simp,.refl _⟩
  | receive id =>
    cases stepped
    exact ⟨[],by simp [Shared.on_mailbox],.refl _⟩
  | start_worker worker_id =>
    cases stepped
    exact ⟨[],by simp,.refl _⟩
  | set_running running =>
    cases stepped
    exact ⟨[],by simp,.refl _⟩

/-! ## Killing -/

/-- A client that kills an actor has found it registered. -/
def Killing (s : System) : Prop :=
  ∀ c ∈ s.clients, ∀ a, dying c = some a → (s.shared.registry.mailboxes.lookup a).isSome

theorem pushing_dying (kind : SendKind) (target : ActorId) (pushed messages : List Message) :
    dying (.pushing kind target pushed messages) = none := by
  cases messages with
  | cons message remaining => rfl
  | nil => cases pushed <;> rfl

theorem killing_step {s s' : System} {label : Label} (sane : Sane s) (killing : Killing s)
    (stepped : s.step label = some s') : Killing s' := by
  obtain ⟨move,-⟩ := step_move sane.toNoLocal stepped
  have stays : ∀ a, (s.shared.registry.mailboxes.lookup a).isSome → (s'.shared.registry.mailboxes.lookup a).isSome :=
    fun a => boxed_step move
  -- The client that moved is the only one to look at.
  have moved : ∀ {i : Nat} {c' : Client}, (∀ a, dying c' = some a → (s'.shared.registry.mailboxes.lookup a).isSome) →
      ∀ c ∈ s.clients.set i c', ∀ a, dying c = some a → (s'.shared.registry.mailboxes.lookup a).isSome := by
    intro i c' new c listed a dies
    rcases List.mem_or_eq_of_mem_set listed with old | rfl
    · exact stays a (killing c old a dies)
    · exact new a dies
  cases move with
  | worker | spawn | receive | start_worker | set_running => exact fun c listed a dies => stays a (killing c listed a dies)
  | drop_send found => exact moved (by simp [dying])
  | @client i call admitted c c' g' found moves =>
    have before := killing c (List.mem_of_getElem? found)
    refine moved ?_
    cases moves with
    | enter =>
      intro a dies
      have lives : dying (Client.enter s.shared call).2 = none := by
        unfold Client.enter
        split <;> (try split) <;> rfl
      simp [lives] at dies
    | look _ _ _ _ dies =>
      intro a now
      rcases dies with same | none
      · exact before a (same.symm.trans now)
      · simp [none] at now
    | @accept kind target pushed remaining =>
      intro a dies
      rw [pushing_dying] at dies
      cases dies
    | kill registered =>
      intro a dies
      cases dies
      refine stays _ (sane.registry.registered _ ?_)
      simpa [ActorRegistry.get_state] using registered
    | clear =>
      intro a dies
      cases dies
      exact stays _ (before _ rfl)
    | _ => simp [dying]

/-- What the last call of a kill leaves. -/
theorem kill_unregisters {s s' : System} {a : ActorId} {i : Nat} {call : Call} {admitted : Bool} (sane : Sane s)
    (killing : Killing s) (found : s.clients[i]? = some (.kill_unregister a))
    (stepped : s.step (.client i call admitted) = some s') : Gone a s' := by
  obtain ⟨move,noLocal⟩ := step_move sane.toNoLocal stepped
  refine ⟨noLocal,?_,boxed_step move (killing _ (List.mem_of_getElem? found) a rfl)⟩
  simp only [System.step,found,Option.bind_eq_bind,Option.bind_some,Client.step,Option.some.injEq] at stepped
  subst stepped
  unfold ActorRegistry.unregister
  split
  · simp
  · next absent => exact absent

/-- When `kill` has unregistered an actor, it stays unregistered in every later
    state. From then on exactly the messages that a worker had already let past
    the check of the state are executed, each at most once, and no message is
    accepted but those of sends that had already looked its mailbox up. -/
theorem kill_is_final {config : SchedulerConfig} (fits : config.mailbox_config.capacity < 2 ^ 64) {n : Nat}
    {s killed s' : System} (reached : Reachable System.step (.init config n) s) {a : ActorId} {i : Nat} {call : Call}
    {admitted : Bool} (found : s.clients[i]? = some (.kill_unregister a))
    (unregisters : s.step (.client i call admitted) = some killed) (later : Reachable System.step killed s') :
    s'.shared.registry.get_state a = none ∧
      (∃ finished, ofActor a s'.shared.history.executed = ofActor a killed.shared.history.executed ++ finished ∧
        (finished ++ begun a s').Perm (begun a killed)) ∧
      ∃ delivered, ofActor a s'.shared.history.accepted = ofActor a killed.shared.history.accepted ++ delivered ∧
        (delivered ++ held a s').Subperm (held a killed) := by
  have before : Sane s ∧ Killing s := by
    have keeps : ∀ s label s', (s.config = config ∧ Sane s ∧ Killing s) → True → s.step label = some s' →
        s'.config = config ∧ Sane s' ∧ Killing s' := by
      rintro s label s' ⟨same,sane,killing⟩ - stepped
      exact ⟨(config_step stepped).trans same,sane_step (by rw [same]; exact fits) sane stepped,
        killing_step sane killing stepped⟩
    have starts : Killing (.init config n) := by
      intro c listed a dies
      rw [List.eq_of_mem_replicate listed] at dies
      cases dies
    exact (reached.invariant ⟨rfl,sane_init config n,starts⟩ keeps).2
  have gone := kill_unregisters before.1 before.2 found unregisters
  have executes := handed_out (fun s : System => ofActor a s.shared.history.executed) (begun a)
    .refl (fun _ _ _ => .trans) (fun _ _ given same => same.append_left given) gone
    (fun _ _ _ inv _ stepped => ⟨gone_step inv stepped,executes_step inv stepped⟩) later
  have accepts := handed_out (fun s : System => ofActor a s.shared.history.accepted) (held a)
    .refl (fun _ _ _ => .trans) (fun _ _ given less => (List.subperm_append_left given).mpr less) gone
    (fun _ _ _ inv _ stepped => ⟨gone_step inv stepped,accepts_step inv stepped⟩) later
  exact ⟨executes.1.stateless,executes.2,accepts.2⟩

/-- A worker is about to execute one message and a send is about to push another
    when a client has cleared the mailbox of the actor. -/
def underway : List Label :=
  [.start_worker 0,.set_running true,.spawn ⟨1⟩ none] ++
    List.replicate 6 (.client 0 (.send ⟨1⟩ { sender := none, payload := .Custom [1], priority := .Normal }) true) ++
    List.replicate 8 (.worker 0 (.returns .Success) 0) ++
    List.replicate 2 (.client 1 (.try_send ⟨1⟩ { sender := none, payload := .Custom [2], priority := .Normal }) true) ++
    List.replicate 4 (.client 0 (.kill ⟨1⟩) true)

/-- Both messages still come through. -/
theorem kill_is_final_underway : ∃ s killed s', Reachable System.step (.init {} 2) s ∧
    s.clients[0]? = some (.kill_unregister ⟨1⟩) ∧ s.step (.client 0 (.kill ⟨1⟩) true) = some killed ∧
    Reachable System.step killed s' ∧ (begun ⟨1⟩ killed).length = 1 ∧ (held ⟨1⟩ killed).length = 1 ∧
    (ofActor ⟨1⟩ s'.shared.history.executed).length = 1 ∧ (ofActor ⟨1⟩ s'.shared.history.accepted).length = 2 ∧
    s'.shared.registry.get_state ⟨1⟩ = none := by
  have seen : (run System.step (.init {} 2) underway).bind (fun s =>
      (s.step (.client 0 (.kill ⟨1⟩) true)).bind (fun killed =>
        (run System.step killed [.worker 0 (.returns .Success) 0,
          .client 1 (.try_send ⟨1⟩ { sender := none, payload := .Empty, priority := .Normal }) true]).map (fun s' =>
        (s.clients[0]?,(begun ⟨1⟩ killed).length,(held ⟨1⟩ killed).length,
          (ofActor ⟨1⟩ s'.shared.history.executed).length,(ofActor ⟨1⟩ s'.shared.history.accepted).length)))) =
      some (some (.kill_unregister ⟨1⟩),1,1,1,2) := by decide +kernel
  obtain ⟨s,runs,later⟩ := Option.bind_eq_some_iff.mp seen
  obtain ⟨killed,unregisters,last⟩ := Option.bind_eq_some_iff.mp later
  obtain ⟨s',more,same⟩ := Option.map_eq_some_iff.mp last
  simp only [Prod.mk.injEq] at same
  obtain ⟨found,one,other,executed,accepted⟩ := same
  have reached : Reachable System.step (.init {} 2) s := reachable_run .start runs
  have after : Reachable System.step killed s' := reachable_run .start more
  exact ⟨s,killed,s',reached,found,unregisters,after,one,other,executed,accepted,
    (kill_is_final (by decide) reached found unregisters after).1⟩

end ActorKit.Killed
