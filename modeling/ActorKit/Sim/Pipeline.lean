import ActorKit.MailboxCalls
import ActorKit.Sim.Executor

/-!
# One task through the pipeline

What `sim_process_task` does to the registry and the executor. A task of a viable
actor is served message by message: every message is recorded, counted and takes
one message out of the mailbox. An armed crash hits the first message: the actor
fails, its mailbox is emptied and nothing is recorded.
-/

namespace ActorKit.Sim.Pipeline
open ActorKit.mailbox ActorKit.registry ActorKit.queue ActorKit.scheduler ActorKit.sim
open ActorKit.MailboxAccounting ActorKit.MailboxCalls

/-- The states in which messages are executed. -/
def Viable : ActorState → Prop
  | .Creating | .Running => True
  | .Suspended | .Stopped | .Failed => False

/-- A message the simulation sends. -/
def Ordinary (m : Message) : Prop := m.payload = .Start ∨ ∃ bytes, m.payload = .Custom bytes

/-- `r'` is `r` after `k` messages of actor `id` were served. -/
structure Served (config : MailboxConfig) (id : ActorId) (k : Nat) (r r' : ActorRegistry) : Prop where
  names : r'.by_name = r.by_name
  sameConfig : r'.mailbox_config = r.mailbox_config
  others : ∀ other, other ≠ id →
    r'.by_id.lookup other = r.by_id.lookup other ∧ r'.mailboxes.lookup other = r.mailboxes.lookup other
  entry : ∀ e, r.by_id.lookup id = some e → Viable e.state →
    ∃ e', r'.by_id.lookup id = some e' ∧ Viable e'.state ∧ e'.name = e.name
  mailbox : ∀ mb, r.mailboxes.lookup id = some mb → Sound config mb → k ≤ queued mb →
    ∃ mb', r'.mailboxes.lookup id = some mb' ∧ Sound config mb' ∧ queued mb' + k = queued mb

section
variable {config : MailboxConfig} {id : ActorId} {r r' r'' : ActorRegistry}

theorem served_refl : Served config id 0 r r where
  names := rfl
  sameConfig := rfl
  others := fun _ _ => ⟨rfl,rfl⟩
  entry := fun e found viable => ⟨e,found,viable,rfl⟩
  mailbox := fun mb found sound _ => ⟨mb,found,sound,rfl⟩

theorem Served.trans {k l : Nat} (first : Served config id k r r') (then_ : Served config id l r' r'') :
    Served config id (k + l) r r'' where
  names := then_.names.trans first.names
  sameConfig := then_.sameConfig.trans first.sameConfig
  others := fun other apart =>
    ⟨(then_.others other apart).1.trans (first.others other apart).1,
      (then_.others other apart).2.trans (first.others other apart).2⟩
  entry := by
    intro e found viable
    obtain ⟨e',found',viable',name'⟩ := first.entry e found viable
    obtain ⟨e'',found'',viable'',name''⟩ := then_.entry e' found' viable'
    exact ⟨e'',found'',viable'',name''.trans name'⟩
  mailbox := by
    intro mb found sound room
    obtain ⟨mb',found',sound',size'⟩ := first.mailbox mb found sound (by omega)
    obtain ⟨mb'',found'',sound'',size''⟩ := then_.mailbox mb' found' sound' (by omega)
    exact ⟨mb'',found'',sound'',by omega⟩

/-- Changing the entry of the actor serves nothing. -/
theorem served_entry (f : ActorEntry → ActorEntry) (name : ∀ e, (f e).name = e.name)
    (viable : ∀ e, Viable e.state → Viable (f e).state) :
    Served config id 0 r { r with by_id := r.by_id.modify id f } where
  names := rfl
  sameConfig := rfl
  others := fun other apart => ⟨by simp [apart],rfl⟩
  entry := fun e found ok => ⟨f e,by simp [found],viable e ok,name e⟩
  mailbox := fun mb found sound _ => ⟨mb,found,sound,rfl⟩

theorem served_running : Served config id 0 r (r.set_state id .Running).1 := by
  unfold ActorRegistry.set_state
  split
  · exact served_entry (fun e => { e with state := .Running }) (fun _ => rfl) (fun _ _ => trivial)
  · exact served_refl

theorem served_recorded : Served config id 0 r (r.record_processed id) :=
  served_entry _ (fun _ => rfl) (fun _ viable => viable)

/-- The slot of one message is released. -/
theorem served_released (fits : config.capacity < 2 ^ 64) :
    Served config id 1 r (r.on_mailbox id (fun mb => mb.try_recv.1)) where
  names := rfl
  sameConfig := rfl
  others := fun other apart => ⟨rfl,by simp [ActorRegistry.on_mailbox,apart]⟩
  entry := fun e found viable => ⟨e,found,viable,rfl⟩
  mailbox := by
    intro mb found sound room
    have some : contents mb ≠ [] := by
      intro empty
      have := contents_length mb
      rw [empty] at this
      simp at this
      omega
    obtain ⟨mb',message,taken,sound',split⟩ := try_recv_takes fits sound some
    refine ⟨mb',by simp [ActorRegistry.on_mailbox,found,taken],sound',?_⟩
    rw [← contents_length,← contents_length,split,List.length_cons]

end

/-! ## The calls of one message -/

/-- The actor is registered in a viable state and its executor is not armed. -/
structure Working (id : ActorId) (p : Progress) : Prop where
  viable : ∃ e, p.shared.registry.by_id.lookup id = some e ∧ Viable e.state
  mailbox : ∃ mb, p.shared.registry.mailboxes.lookup id = some mb
  calm : p.executor.crash_next = false

/-- What the executor observes of a message. -/
def recordOf (id : ActorId) (m : Message) : ExecRecord := ⟨id,tag_of m.payload⟩

/-- `p'` is `p` after the messages `ms` of actor `id` were executed. -/
structure Executed (config : MailboxConfig) (id : ActorId) (ms : List Message) (p p' : Progress) : Prop where
  served : Served config id ms.length p.shared.registry p'.shared.registry
  executor : p'.executor = { p.executor with records := p.executor.records ++ ms.map (recordOf id) }
  processed : p'.processed = p.processed + ms.length

theorem executed_nil {config : MailboxConfig} {id : ActorId} (p : Progress) : Executed config id [] p p :=
  ⟨served_refl,by simp,rfl⟩

theorem Executed.trans {config : MailboxConfig} {id : ActorId} {ms ns : List Message} {p p' p'' : Progress}
    (first : Executed config id ms p p') (then_ : Executed config id ns p' p'') :
    Executed config id (ms ++ ns) p p'' := by
  refine ⟨?_,?_,?_⟩
  · rw [List.length_append]
    exact first.served.trans then_.served
  · rw [then_.executor,first.executor]
    simp
  · rw [then_.processed,first.processed,List.length_append]
    omega

theorem Working.after {config : MailboxConfig} {id : ActorId} {ms : List Message} {p p' : Progress}
    (working : Working id p) (executed : Executed config id ms p p')
    (mailbox : ∃ mb, p'.shared.registry.mailboxes.lookup id = some mb) : Working id p' := by
  obtain ⟨e,found,viable⟩ := working.viable
  obtain ⟨e',found',viable',-⟩ := executed.served.entry e found viable
  refine ⟨⟨e',found',viable'⟩,mailbox,?_⟩
  rw [executed.executor]
  exact working.calm

/-- The rest of a run: `none` is a task that has returned. -/
def resume (calls : Nat) (p : Progress) : Option Job → Except Failure Progress
  | none => .ok p
  | some job => process_task_safe calls p job

theorem process_step (calls : Nat) (p : Progress) (job : Job) :
    process_task_safe (calls + 1) p job = resume calls (p.step job).1 (p.step job).2 := by
  rw [process_task_safe]
  match p.step job with
  | (_,none) => rfl
  | (_,some _) => rfl

theorem get_state_viable {id : ActorId} {r : ActorRegistry} {e : ActorEntry} (found : r.by_id.lookup id = some e)
    (viable : Viable e.state) : r.get_state id = some .Creating ∨ r.get_state id = some .Running := by
  unfold ActorRegistry.get_state
  rw [found]
  cases state : e.state <;> simp_all [Viable]

theorem set_state_registered (r : ActorRegistry) (id : ActorId) (state : ActorState) (other : ActorId) :
    ((r.set_state id state).1.by_id.lookup other).isSome = (r.by_id.lookup other).isSome ∧
    (r.set_state id state).1.mailboxes = r.mailboxes := by
  unfold ActorRegistry.set_state
  split
  · refine ⟨?_,rfl⟩
    rw [Dict.lookup_modify]
    split <;> simp
  · exact ⟨rfl,rfl⟩

/-- A viable actor is found by the first call, and its message executed next. -/
theorem step_look {id : ActorId} {p : Progress} (working : Working id p) (job : Job) (same : job.actor_id = id)
    {m : Message} (here : job.stage = .get_state m) : p.step job = (p,some { job with stage := .execute m }) := by
  obtain ⟨e,found,viable⟩ := working.viable
  unfold Progress.step Job.step
  simp only [here,same]
  have looked := get_state_viable found viable
  rcases looked with state | state <;> rw [state]

/-- From the recording of a message on, whatever happened before: it is counted
    and its slot is released. -/
theorem serve_tail {config : MailboxConfig} (fits : config.capacity < 2 ^ 64) {id : ActorId} (p : Progress)
    (present : (p.shared.registry.by_id.lookup id).isSome) (box : ∃ mb, p.shared.registry.mailboxes.lookup id = some mb)
    (job : Job) (same : job.actor_id = id) (here : job.stage = .record) :
    ∃ p', (∀ calls, process_task_safe (calls + 3) p job = resume calls p' job.finish) ∧
      Served config id 1 p.shared.registry p'.shared.registry ∧ p'.executor = p.executor ∧
      p'.processed = p.processed + 1 ∧ (∃ mb, p'.shared.registry.mailboxes.lookup id = some mb) := by
  obtain ⟨mb,box⟩ := box
  subst same
  have stays : (p.shared.registry.record_processed job.actor_id).get_mailbox job.actor_id = some mb := by
    have listed : ((p.shared.registry.record_processed job.actor_id).by_id.lookup job.actor_id).isSome := by
      simpa [ActorRegistry.record_processed] using present
    rw [ActorRegistry.get_mailbox,if_pos listed]
    exact box
  refine ⟨{ p with
    shared := { p.shared with registry :=
      (p.shared.registry.record_processed job.actor_id).on_mailbox job.actor_id (fun mb => mb.try_recv.1) }
    processed := p.processed + 1 },fun calls => ?_,?_,rfl,rfl,?_⟩
  · rw [process_step]
    simp only [Progress.step,Job.step,here,resume]
    rw [process_step]
    simp only [Progress.step,Job.step,stays,resume]
    rw [process_step]
    rfl
  · exact served_recorded.trans (served_released fits)
  · refine ⟨mb.try_recv.1,?_⟩
    show (p.shared.registry.mailboxes.modify job.actor_id _).lookup job.actor_id = _
    simp [box]

/-- One message of a viable actor: at most six calls. -/
theorem serve_one {config : MailboxConfig} (fits : config.capacity < 2 ^ 64) {id : ActorId} {p : Progress}
    (working : Working id p) (job : Job) (same : job.actor_id = id) {m : Message} (ordinary : Ordinary m)
    (here : job.stage = .get_state m) :
    ∃ p' used, used ≤ 6 ∧ (∀ calls, process_task_safe (calls + used) p job = resume calls p' job.finish) ∧
      Executed config id [m] p p' ∧ Working id p' := by
  have looked := step_look working job same here
  obtain ⟨e,found,viable⟩ := working.viable
  -- The executor answers with success.
  let p₁ : Progress :=
    { p with
      shared := p.shared.log_executed id m
      executor := { p.executor with records := p.executor.records ++ [recordOf id m] } }
  have present : (p.shared.registry.by_id.lookup id).isSome := by rw [found]; rfl
  have answered : p.step { job with stage := .execute m } =
      (p₁,some { job with stage := .after (success_change m.payload) }) := by
    subst same
    simp only [Progress.step,SimExecutor.execute,working.calm,Bool.false_eq_true,if_false,Job.step,seam,if_true,p₁,
      recordOf]
  have finish : ∀ stage, ({ job with stage } : Job).finish = job.finish := fun _ => rfl
  rcases ordinary with start | ⟨bytes,custom⟩
  · -- A start message sets the state first.
    have changes : success_change m.payload = some .Running := by rw [start]; rfl
    let p₂ : Progress := { p₁ with shared := p₁.shared.set_state id .Running }
    have set : p₁.step { job with stage := .set_state .Running } = (p₂,some { job with stage := .record }) := by
      subst same
      rfl
    have kept := set_state_registered p.shared.registry id .Running id
    obtain ⟨p',rest,served,executor,processed,box⟩ := serve_tail fits p₂ (kept.1.trans present)
      (by rw [show p₂.shared.registry.mailboxes = p.shared.registry.mailboxes from kept.2]; exact working.mailbox)
      { job with stage := .record } same rfl
    have executed : Executed config id [m] p p' := by
      refine ⟨?_,executor,processed⟩
      exact (served_running (r := p.shared.registry)).trans served
    refine ⟨p',6,Nat.le_refl _,fun calls => ?_,executed,working.after executed box⟩
    rw [process_step,looked,resume,process_step,answered,resume,changes,Stage.after,process_step,set,resume,rest,finish]
  · have changes : success_change m.payload = none := by rw [custom]; rfl
    obtain ⟨p',rest,served,executor,processed,box⟩ := serve_tail fits p₁ present working.mailbox
      { job with stage := .record } same rfl
    have executed : Executed config id [m] p p' := ⟨served,executor,processed⟩
    refine ⟨p',5,by decide,fun calls => ?_,executed,working.after executed box⟩
    rw [process_step,looked,resume,process_step,answered,resume,changes,Stage.after,rest,finish]

/-- The rest of a batch, from the check after one of its messages on. -/
theorem serve_rest {config : MailboxConfig} (fits : config.capacity < 2 ^ 64) {id : ActorId} (rest : List Message)
    (ordinary : ∀ m ∈ rest, Ordinary m) {p : Progress} (working : Working id p) (job : Job) (same : job.actor_id = id)
    (batch : job.batch = true) (top : job.depth = 0) (remaining : job.rest = rest) (here : job.stage = .check)
    (calls : Nat) (enough : 7 * rest.length < calls) :
    ∃ p', process_task_safe calls p job = .ok p' ∧ Executed config id rest p p' := by
  induction rest generalizing p job calls with
  | nil =>
    obtain ⟨e,found,viable⟩ := working.viable
    obtain ⟨left,rfl⟩ : ∃ left, calls = left + 1 := ⟨calls - 1,by simp at enough; omega⟩
    have done : p.step job = (p,none) := by
      subst same
      simp only [Progress.step,Job.step,here]
      rcases get_state_viable found viable with state | state <;> rw [state] <;> simp only [remaining]
    exact ⟨p,by rw [process_step,done,resume],executed_nil p⟩
  | cons m rest ih =>
    obtain ⟨e,found,viable⟩ := working.viable
    have next : p.step job = (p,some { job with rest, stage := .get_state m }) := by
      subst same
      simp only [Progress.step,Job.step,here]
      rcases get_state_viable found viable with state | state <;> rw [state] <;> simp only [remaining]
    obtain ⟨p₁,used,few,steps,executed,working₁⟩ := serve_one fits working { job with rest, stage := .get_state m }
      same (ordinary m List.mem_cons_self) rfl
    simp only [List.length_cons] at enough
    obtain ⟨p',ends,executed'⟩ := ih (fun m' member => ordinary m' (List.mem_cons_of_mem _ member)) working₁
      { job with rest, stage := .check } same batch top rfl rfl (calls - 1 - used) (by omega)
    refine ⟨p',?_,executed.trans executed'⟩
    obtain ⟨left,rfl⟩ : ∃ left, calls = left + used + 1 := ⟨calls - 1 - used,by omega⟩
    have finish : ({ job with rest, stage := .get_state m } : Job).finish = some { job with rest, stage := .check } := by
      simp [Job.finish,top,batch]
    rw [process_step,next,resume,steps,finish,resume]
    rw [show left + used + 1 - 1 - used = left by omega] at ends
    exact ends

/-! ## A whole task -/

/-- Without a crash every message of the task is executed. -/
theorem task_executed {config : MailboxConfig} (fits : config.capacity < 2 ^ 64) {registry : ActorRegistry} {task : Task}
    {executor : SimExecutor} {e : ActorEntry} {mb : Mailbox} (found : registry.by_id.lookup task.actor_id = some e)
    (viable : Viable e.state) (box : registry.mailboxes.lookup task.actor_id = some mb)
    (calm : executor.crash_next = false) (ordinary : ∀ m ∈ task.messages, Ordinary m) :
    ∃ p, sim_process_task registry task executor = .ok p ∧
      Served config task.actor_id task.messages.length registry p.shared.registry ∧
      p.executor = { executor with records := executor.records ++ task.messages.map (recordOf task.actor_id) } ∧
      p.processed = task.messages.length := by
  have working : Working task.actor_id { shared := { registry }, executor } := ⟨⟨e,found,viable⟩,⟨mb,box⟩,calm⟩
  obtain ⟨p₁,used,few,steps,executed,working₁⟩ := serve_one fits working (.start task) rfl
    (ordinary _ List.mem_cons_self) rfl
  have whole : ∃ p, sim_process_task registry task executor = .ok p ∧
      Executed config task.actor_id task.messages { shared := { registry }, executor } p := by
    unfold sim_process_task
    obtain ⟨calls,count⟩ : ∃ calls, 7 * task.messages.length = calls + used :=
      ⟨7 * task.messages.length - used,by simp only [Task.messages,List.length_cons]; omega⟩
    rw [count,steps]
    cases more : task.additional_messages with
    | nil =>
      have finish : (Job.start task).finish = none := by simp [Job.start,Job.finish,more]
      refine ⟨p₁,by rw [finish,resume],?_⟩
      rw [Task.messages,more]
      exact executed
    | cons m rest =>
      have finish : (Job.start task).finish = some { Job.start task with stage := .check } := by
        simp [Job.start,Job.finish,more]
      obtain ⟨p,ends,executed'⟩ := serve_rest fits task.additional_messages
        (fun m member => ordinary m (List.mem_cons_of_mem _ member)) working₁ { Job.start task with stage := .check }
        rfl (by simp [Job.start,more]) rfl rfl rfl calls
        (by simp only [Task.messages,List.length_cons] at count; omega)
      exact ⟨p,by rw [finish,resume]; exact ends,executed.trans executed'⟩
  obtain ⟨p,ran,executed⟩ := whole
  exact ⟨p,ran,executed.served,executed.executor,executed.processed.trans (Nat.zero_add _)⟩

/-- An armed crash hits the first message. -/
theorem task_crashed {registry : ActorRegistry} {task : Task} {executor : SimExecutor} {e : ActorEntry} {mb : Mailbox}
    (found : registry.by_id.lookup task.actor_id = some e) (viable : Viable e.state)
    (box : registry.mailboxes.lookup task.actor_id = some mb) (armed : executor.crash_next = true) :
    ∃ p, sim_process_task registry task executor = .ok p ∧
      p.shared.registry = (registry.set_state task.actor_id .Failed).1.on_mailbox task.actor_id Mailbox.clear ∧
      p.executor = { executor with crash_next := false } := by
  let id := task.actor_id
  have kept := set_state_registered registry id .Failed id
  have stays : ((registry.set_state id .Failed).1).get_mailbox id = some mb := by
    rw [ActorRegistry.get_mailbox,if_pos (by rw [kept.1,found]; rfl),kept.2]
    exact box
  obtain ⟨calls,count⟩ : ∃ calls, 7 * task.messages.length = calls + 5 :=
    ⟨7 * task.messages.length - 5,by simp only [Task.messages,List.length_cons]; omega⟩
  have state := get_state_viable found viable
  refine ⟨⟨{ registry := (registry.set_state id .Failed).1.on_mailbox id Mailbox.clear
             history := { executed := [(id,task.message)] } },{ executor with crash_next := false },0⟩,?_,rfl,rfl⟩
  rw [sim_process_task,count,process_step]
  have look : ∀ p : Progress, p.shared.registry = registry →
      p.step (Job.start task) = (p,some { Job.start task with stage := .execute task.message }) := by
    intro p same
    simp only [Progress.step,Job.start,Job.step,same]
    rcases state with state | state <;> rw [state]
  rw [look _ rfl,resume,process_step]
  simp only [Progress.step,SimExecutor.execute,armed,if_true,Job.step,seam,resume]
  rw [process_step]
  simp only [Progress.step,Job.step,resume]
  rw [process_step]
  simp only [Progress.step,Job.step,Shared.set_state,Shared.log_executed,Job.start]
  rw [show (registry.set_state task.actor_id .Failed).1.get_mailbox task.actor_id = some mb from stays]
  simp only [resume]
  rw [process_step]
  rfl

end ActorKit.Sim.Pipeline
