import ActorKit.ExactlyOnce

/-!
# Order of execution

Tasks of one priority leave their injector in the order they were pushed, but
nothing serializes the workers of one actor: a worker may take the second task
while another one has not yet executed the message of the first. In runs where no
worker does, messages of one sender and one priority are executed in the order
they were sent.
-/

namespace ActorKit.Fifo
open ActorKit.mailbox ActorKit.registry ActorKit.queue ActorKit.scheduler ActorKit.MailboxCalls ActorKit.Moves
open ActorKit.Inventory ActorKit.Transition ActorKit.Counting ActorKit.Delivery ActorKit.Outcomes
open ActorKit.Slots (Active calm)

/-- The actor, once registered, is running. -/
def Runs (a : ActorId) (s : System) : Prop := ∀ state, s.shared.registry.get_state a = some state → Active state

theorem runs_alive {a : ActorId} {s : System} (runs : Runs a s) : Alive a s := by
  intro state found
  rcases runs state found with rfl | rfl <;> simp

instance (a : ActorId) (s : System) : Decidable (Runs a s) :=
  inferInstanceAs (Decidable (∀ state ∈ s.shared.registry.get_state a, Active state))

/-- The task a worker is about to take. -/
def takes (s : System) : Label → Option Task
  | .worker i _ _ => match s.workers[i]? with
    | some w => match w.pc with
      | .pop lane => (s.shared.injectors.get lane).head?
      | .pop_local => (s.shared.deques[w.deque]?).bind List.head?
      | .steal (victim :: _) => (s.shared.deques[victim]?).bind List.head?
      | _ => none
    | none => none
  | _ => none

/-- No worker takes a task of the actor while another one still has to execute a
    message of it of the same priority. -/
def OneAtATime (a : ActorId) (s : System) (label : Label) : Prop :=
  ∀ task ∈ takes s label, task.actor_id = a → ∀ w ∈ s.workers, ∀ m ∈ owedBy a w, m.priority ≠ task.priority

instance (a : ActorId) (s : System) (label : Label) : Decidable (OneAtATime a s label) :=
  inferInstanceAs (Decidable (∀ task ∈ takes s label, task.actor_id = a → ∀ w ∈ s.workers, ∀ m ∈ owedBy a w,
    m.priority ≠ task.priority))

/-! ## Injectors are queues -/

/-- What is left in an injector is the end of what was pushed to it. -/
def Lanes (s : System) : Prop :=
  ∀ lane, s.shared.injectors.get lane <:+
    (s.shared.history.enqueued.map (·.2)).filter (fun task => lane_of s.config.priority_scheduling task = lane)

theorem lanes_step {s s' : System} {label : Label} (inv : Lanes s) (move : Move s label s') : Lanes s' := by
  cases move with
  | worker _ moves =>
    cases moves with
    | look => exact inv
    | @take _ lane task rest _ head _ _ =>
      intro other
      show (s.shared.injectors.set lane rest).get other <:+ _
      rw [Injectors.get_set]
      split
      · next same =>
        subst same
        have before := inv other
        rw [head] at before
        exact (List.suffix_cons task rest).trans before
      · exact inv other
    | work _ steps =>
      have frame := effect_frame (step_effect steps)
      unfold Lanes
      simp only [frame.injectors,frame.enqueued]
      exact inv
  | client _ moves =>
    cases moves with
    | enter =>
      obtain ⟨_,same⟩ := enter_frame s.shared _
      rw [same]
      exact inv
    | @enqueue target first additional =>
      intro other
      obtain ⟨gone,split⟩ := inv other
      generalize task_of target first additional = task
      show (s.shared.injectors.set (lane_of s.config.priority_scheduling task) _).get other <:+ _
      simp only [Injectors.get_set,List.map_append,List.map_cons,List.map_nil,List.filter_append,← split]
      by_cases same : other = lane_of s.config.priority_scheduling task
      · subst same
        exact ⟨gone,by simp⟩
      · exact ⟨gone,by simp [same,Ne.symm same]⟩
    | _ => exact inv
  | _ => exact inv

theorem lanes_reach {config : SchedulerConfig} (fits : config.mailbox_config.capacity < 2 ^ 64) {n : Nat}
    {ok : System → Label → Prop} {s : System} (reached : Reach System.step ok (.init config n) s) : Lanes s := by
  induction reached with
  | start =>
    intro lane
    cases lane <;> exact List.nil_suffix
  | next before _ stepped ih =>
    obtain ⟨-,sane⟩ := sane_reach fits before
    exact lanes_step ih (step_move sane.toNoLocal stepped).1

/-- Every queued task was pushed by a send. -/
theorem queued_enqueued {s : System} (sane : Sane s) (lanes : Lanes s) {task : Task} (queued : task ∈ tasks s.shared) :
    task ∈ s.shared.injectors.get (lane_of s.config.priority_scheduling task) ∧
      task ∈ s.shared.history.enqueued.map (·.2) := by
  rcases (mem_tasks ..).mp queued with ⟨lane,listed⟩ | stored
  · have pushed := (lanes lane).subset listed
    simp only [List.mem_filter,decide_eq_true_eq] at pushed
    obtain ⟨known,rfl⟩ := pushed
    exact ⟨listed,known⟩
  · obtain ⟨d,member,inside⟩ := List.mem_flatten.mp stored
    rw [sane.empty d member] at inside
    cases inside

/-! ## Jobs of a running actor -/

/-- A job outside the `Suspended` arm. -/
def Awake (job : Job) : Prop :=
  job.depth = 0 ∧ match job.stage with
    | .control _ | .control_mailbox | .control_release | .control_check | .drain | .drain_empty | .drain_pop
    | .requeue _ | .requeue_push _ => False
    | _ => True

theorem finish_awake {job next : Job} (awake : Awake job) (done : job.finish = some next) : Awake next := by
  unfold Job.finish at done
  rw [awake.1] at done
  dsimp only at done
  split at done <;> cases done
  exact ⟨rfl,trivial⟩

theorem job_awake {config : SchedulerConfig} {g g' : Shared} {job next : Job} {execution : Execution} (awake : Awake job)
    (running : ∀ state, g.registry.get_state job.actor_id = some state → Active state)
    (steps : job.step config g execution = (g',some next)) : Awake next := by
  obtain ⟨id,batch,rest,depth,stage⟩ := job
  have shallow : depth = 0 := awake.1
  have move := job_move steps
  generalize after : some next = result at move
  cases move with
  | asleep_control asleep | asleep_requeue asleep => simpa [Active] using running _ asleep
  | @handled m change =>
    cases after
    cases change <;> exact ⟨shallow,trivial⟩
  | awake | fails | panics | assigns | records | boxed | fail_assigns | fail_boxed | batch_next | panic_assigns
    | panic_boxed =>
    cases after
    exact ⟨shallow,trivial⟩
  | absent | unboxed | releases | fail_unboxed | fail_clears => exact finish_awake awake after.symm
  | batch_abandoned | batch_done | panic_unboxed | panic_clears => cases after
  | _ => exact False.elim awake.2

theorem awake_spared {g : Shared} {job : Job} (awake : Awake job)
    (running : ∀ state, g.registry.get_state job.actor_id = some state → Active state) (m : Message) :
    Spared m g job := by
  constructor
  · intro _ asleep
    simpa [Active] using running _ asleep
  · intro atDrain
    have inside := awake.2
    rw [atDrain] at inside
    exact inside.elim

/-! ## The order of two messages -/

/-- A message in the hand of a worker or executed was sent after everything sent
    before it with its priority has been executed. -/
def Ordered (a : ActorId) (s : System) : Prop :=
  ∀ c m₁ m₂, [(c,task_of a m₁ []),(c,task_of a m₂ [])].Sublist s.shared.history.enqueued → m₁.priority = m₂.priority →
    (∀ w ∈ s.workers, m₂ ∈ owedBy a w → (a,m₁) ∈ s.shared.history.executed) ∧
      ∀ before after, s.shared.history.executed = before ++ (a,m₂) :: after → (a,m₁) ∈ before

/-- What holds of a running actor. -/
structure Running (a : ActorId) (s : System) : Prop where
  rooted : Rooted a s
  awake : ∀ w ∈ s.workers, ∀ job, holding w = some job → job.actor_id = a → Awake job
  kept : ∀ m, (a,m) ∉ s.shared.history.requeued
  account : ∀ m, accounted a m s = carried a m s

theorem weight_own (a : ActorId) (m : Message) : weight (only m) a (task_of a m []) = 1 := by
  simp [weight,task_of,Task.messages,only]

/-- The only enqueued task with a message is the one its send enqueued. -/
theorem own_task {a : ActorId} {s : System} {m : Message} {c : Nat} {task : Task} (once : carried a m s ≤ 1)
    (sent : (c,task_of a m []) ∈ s.shared.history.enqueued) (listed : task ∈ s.shared.history.enqueued.map (·.2))
    (mine : task.actor_id = a) (inside : m ∈ task.messages) : task = task_of a m [] := by
  obtain ⟨⟨c',task⟩,member,rfl⟩ := List.mem_map.mp listed
  have carries : 1 ≤ weight (only m) a task := by
    rw [weight_only,if_pos mine]
    exact List.count_pos_iff.mpr inside
  have own : 1 ≤ weight (only m) a (task_of a m []) := by rw [weight_own]
  have same := eq_of_sum_le_one (fun e : Nat × Task => weight (only m) a e.2) once member sent carries own
  exact (Prod.mk.inj same).2

theorem sent_once {a : ActorId} {s : System} {m : Message} (once : carried a m s ≤ 1) :
    (s.shared.history.enqueued.map (·.2)).count (task_of a m []) ≤ 1 := by
  have counts := count_le_sum_map (weight (only m) a) (Nat.le_of_eq (weight_own a m).symm)
    (s.shared.history.enqueued.map (·.2))
  rw [List.map_map] at counts
  exact counts.trans once

/-- Tasks of one priority share a lane. -/
theorem lane_same {priority_scheduling : Bool} {a : ActorId} {m₁ m₂ : Message} (same : m₁.priority = m₂.priority) :
    lane_of priority_scheduling (task_of a m₁ []) = lane_of priority_scheduling (task_of a m₂ []) := by
  simp [lane_of,task_of,same]

/-- Where a message of a running actor is. -/
theorem sent_somewhere {a : ActorId} {s : System} {m : Message} (inv : Running a s) {c : Nat}
    (sent : (c,task_of a m []) ∈ s.shared.history.enqueued) :
    (∃ task ∈ tasks s.shared, task.actor_id = a ∧ m ∈ task.messages) ∨ (∃ w ∈ s.workers, m ∈ owedBy a w) ∨
      (a,m) ∈ s.shared.history.executed := by
  have carries : 1 ≤ carried a m s := by
    have listed := le_sum_map (fun e : Nat × Task => weight (only m) a e.2) sent
    dsimp only at listed
    rw [weight_own] at listed
    exact listed
  have account := inv.account m
  have kept : s.shared.history.requeued.count (a,m) = 0 := List.count_eq_zero.mpr (inv.kept m)
  unfold accounted settled at account
  by_contra nowhere
  push Not at nowhere
  obtain ⟨unqueued,unheld,unexecuted⟩ := nowhere
  have queues : queuedWeight (only m) a s.shared = 0 := by
    refine sum_map_eq_zero _ _ (fun task member => ?_)
    rw [weight_only]
    split
    · next mine => exact List.count_eq_zero.mpr (unqueued task member mine)
    · rfl
  have hands : (s.workers.map (fun w => (owedBy a w).count m)).sum = 0 :=
    sum_map_eq_zero _ _ (fun w member => List.count_eq_zero.mpr (unheld w member))
  have never : s.shared.history.executed.count (a,m) = 0 := List.count_eq_zero.mpr unexecuted
  omega

/-- Under the condition, whatever was sent before the message a worker takes has
    been executed. -/
theorem taken_last {s : System} {a : ActorId} {i : Nat} {execution : Execution} {moved : Nat} {w : Worker} {lane : Lane}
    {task : Task} {rest : List Task} (sane : Sane s) (lanes : Lanes s) (once : ∀ m, carried a m s ≤ 1)
    (inv : Running a s) (condition : OneAtATime a s (.worker i execution moved)) (found : s.workers[i]? = some w)
    (pops : w.pc = .pop lane) (head : s.shared.injectors.get lane = task :: rest) {c : Nat} {m₁ m₂ : Message}
    (order : [(c,task_of a m₁ []),(c,task_of a m₂ [])].Sublist s.shared.history.enqueued)
    (same : m₁.priority = m₂.priority) (mine : task.actor_id = a) (inside : m₂ ∈ task.messages) :
    (a,m₁) ∈ s.shared.history.executed := by
  have sent₁ : (c,task_of a m₁ []) ∈ s.shared.history.enqueued := order.subset List.mem_cons_self
  have sent₂ : (c,task_of a m₂ []) ∈ s.shared.history.enqueued :=
    order.subset (List.mem_cons_of_mem _ List.mem_cons_self)
  have first : task ∈ s.shared.injectors.get lane := by rw [head]; exact List.mem_cons_self
  have pushed := (lanes lane).subset first
  simp only [List.mem_filter,decide_eq_true_eq] at pushed
  obtain ⟨listed,inLane⟩ := pushed
  have is₂ : task = task_of a m₂ [] := own_task (once m₂) sent₂ listed mine inside
  subst is₂
  have taken : takes s (.worker i execution moved) = some (task_of a m₂ []) := by simp [takes,found,pops,head]
  rcases sent_somewhere inv sent₁ with ⟨task,waiting,mine₁,inside₁⟩ | ⟨other,member,owes⟩ | done
  · -- The first task would still be queued, but its lane gives it before the second one.
    obtain ⟨behind,listed₁⟩ := queued_enqueued sane lanes waiting
    have is₁ : task = task_of a m₁ [] := own_task (once m₁) sent₁ listed₁ mine₁ inside₁
    subst is₁
    rw [lane_same same,inLane] at behind
    obtain ⟨gone,split⟩ := lanes lane
    have inOrder : [task_of a m₁ [],task_of a m₂ []].Sublist (gone ++ s.shared.injectors.get lane) := by
      have mapped := (order.map (·.2)).filter (fun task => lane_of s.config.priority_scheduling task = lane)
      rw [split]
      simpa [lane_same same,inLane] using mapped
    have alone : ∀ m, (gone ++ s.shared.injectors.get lane).count (task_of a m []) ≤ 1 := by
      intro m
      rw [split]
      exact (List.filter_sublist.count_le _).trans (sent_once (once m))
    have passed := mem_before inOrder (by rw [head]) (alone m₂)
    have twice := alone m₁
    rw [List.count_append] at twice
    have before := List.count_pos_iff.mpr passed
    have after := List.count_pos_iff.mpr behind
    omega
  · exact absurd same (condition _ taken mine other member m₁ owes)
  · exact done

/-- A step that executes at most one message in hand keeps the order. -/
theorem ordered_next {s s' : System} {a : ActorId} (inv : Ordered a s)
    (sameTasks : s'.shared.history.enqueued = s.shared.history.enqueued)
    (growth : s'.shared.history.executed = s.shared.history.executed ∨
      ∃ e, s'.shared.history.executed = s.shared.history.executed ++ [e] ∧
        ∀ m, e = (a,m) → ∃ w ∈ s.workers, m ∈ owedBy a w)
    (hands : ∀ c m₁ m₂, [(c,task_of a m₁ []),(c,task_of a m₂ [])].Sublist s.shared.history.enqueued →
      m₁.priority = m₂.priority → ∀ w ∈ s'.workers, m₂ ∈ owedBy a w →
      (∃ v ∈ s.workers, m₂ ∈ owedBy a v) ∨ (a,m₁) ∈ s.shared.history.executed) : Ordered a s' := by
  have grows : ∀ e ∈ s.shared.history.executed, e ∈ s'.shared.history.executed := by
    intro e member
    rcases growth with same | ⟨_,more,-⟩
    · rw [same]; exact member
    · rw [more]; exact List.mem_append_left _ member
  intro c m₁ m₂ order same
  rw [sameTasks] at order
  obtain ⟨waits,follows⟩ := inv c m₁ m₂ order same
  constructor
  · intro w member owes
    rcases hands c m₁ m₂ order same w member owes with ⟨v,old,held⟩ | done
    · exact grows _ (waits v old held)
    · exact grows _ done
  · intro before after split
    rcases growth with kept | ⟨e,more,held⟩
    · exact follows before after (kept ▸ split)
    · -- The last execution is the new one, or the split was there before.
      rw [more] at split
      rcases List.eq_nil_or_concat after with rfl | ⟨earlier,last,rfl⟩
      · obtain ⟨rfl,same⟩ := List.append_inj' split rfl
        obtain ⟨w,member,owes⟩ := held m₂ (List.cons.inj same).1
        exact waits w member owes
      · rw [List.concat_eq_append,← List.cons_append,← List.append_assoc] at split
        exact follows before earlier (List.append_inj' split rfl).1

/-- What one call of a job of a running actor does to the order. -/
theorem ordered_work {s : System} {a : ActorId} {i : Nat} {execution : Execution} {w w' : Worker} {g' : Shared} {job : Job}
    (runs : Runs a s) (running : Running a s) (inv : Ordered a s) (found : s.workers[i]? = some w)
    (holds : holding w = some job) (steps : job.step s.config s.shared execution = (g',holding w')) :
    Ordered a { s with shared := g', workers := s.workers.set i w' } := by
  have member := List.mem_of_getElem? found
  have effect := step_effect steps
  have frame := effect_frame effect
  by_cases mine : job.actor_id = a
  · subst mine
    have owes := job_owes (running.rooted.whole w member job holds rfl)
      (alive_state (runs_alive runs) (running.rooted.registered w member job holds rfl)) steps
    have account := fun m => owes.account m (awake_spared (running.awake w member job holds rfl) runs m)
    have before : owedBy job.actor_id w = owed job := by simp [owedBy,holds]
    have after : owedBy job.actor_id w' = ((holding w').map owed).getD [] := by rw [owedBy_next steps,if_pos rfl]
    refine ordered_next inv frame.enqueued ?_ ?_
    · cases effect with
      | @executed m _ =>
        refine .inr ⟨_,rfl,fun m' same => ⟨w,member,?_⟩⟩
        cases same
        have once := account m
        have logged : settled job.actor_id m (s.shared.log_executed job.actor_id m) =
            settled job.actor_id m s.shared + 1 := by
          simp [settled,Shared.log_executed]
          omega
        rw [before]
        exact List.count_pos_iff.mp (by omega)
      | _ => exact .inl rfl
    · intro c m₁ m₂ _ _ other listed held
      rcases List.mem_or_eq_of_mem_set listed with old | rfl
      · exact .inl ⟨other,old,held⟩
      · refine .inl ⟨w,member,?_⟩
        have once := account m₂
        have grown := settled_grows effect m₂
        rw [after] at held
        rw [before]
        have some := List.count_pos_iff.mpr held
        exact List.count_pos_iff.mp (by omega)
  · have free : owedBy a w' = [] := by
      unfold owedBy
      cases goes : holding w' with
      | none => rfl
      | some next =>
        rw [goes] at steps
        simp [(job_hand steps).1,mine]
    refine ordered_next inv frame.enqueued ?_ ?_
    · cases effect with
      | executed =>
        refine .inr ⟨_,rfl,fun m' same => ?_⟩
        exact absurd (Prod.mk.inj same).1 mine
      | _ => exact .inl rfl
    · intro c m₁ m₂ _ _ other listed held
      rcases List.mem_or_eq_of_mem_set listed with old | rfl
      · exact .inl ⟨other,old,held⟩
      · rw [free] at held
        cases held

/-- The message of a task that is just being enqueued is nowhere else. -/
theorem ordered_enqueue {s : System} {a : ActorId} {i : Nat} {target : ActorId} {first : Message}
    {additional : List Message} {g' : Shared} (once : ∀ m, forwarded a m s ≤ 1) (running : Running a s) (inv : Ordered a s)
    (found : s.clients[i]? = some (.enqueue target first additional))
    (tasks : g'.history.enqueued = s.shared.history.enqueued ++ [(i,task_of target first additional)])
    (executed : g'.history.executed = s.shared.history.executed) :
    Ordered a { s with shared := g', clients := s.clients.set i .idle } := by
  intro c m₁ m₂ order same
  show (∀ w ∈ s.workers, m₂ ∈ owedBy a w → (a,m₁) ∈ g'.history.executed) ∧
    ∀ before after, g'.history.executed = before ++ (a,m₂) :: after → (a,m₁) ∈ before
  replace order : [(c,task_of a m₁ []),(c,task_of a m₂ [])].Sublist g'.history.enqueued := order
  rw [executed]
  rw [tasks] at order
  by_cases new : (c,task_of a m₂ []) = (i,task_of target first additional)
  · have handed : m₂ ∈ pushedBy a (.enqueue target first additional) := by
      have fields := (Prod.mk.inj new).2
      simp only [task_of,Task.mk.injEq] at fields
      simp [pushedBy,← fields.1,fields.2.1]
    have pushes := le_sum_map (fun c => (pushedBy a c).count m₂) (List.mem_of_getElem? found)
    have here : 1 ≤ (pushedBy a (.enqueue target first additional)).count m₂ := List.count_pos_iff.mpr handed
    have nowhere := once m₂
    have account := running.account m₂
    unfold forwarded at nowhere
    unfold accounted settled at account
    constructor
    · intro w member owes
      have held := le_sum_map (fun w => (owedBy a w).count m₂) member
      have some := List.count_pos_iff.mpr owes
      omega
    · intro before after split
      have some : 0 < s.shared.history.executed.count (a,m₂) := by
        rw [split]
        exact List.count_pos_iff.mpr (by simp)
      omega
  · have older : [(c,task_of a m₁ []),(c,task_of a m₂ [])].Sublist s.shared.history.enqueued := by
      obtain ⟨left,right,split,inside,last⟩ := List.sublist_append_iff.mp order
      rcases List.sublist_singleton.mp last with rfl | rfl
      · rw [List.append_nil] at split
        rw [split]
        exact inside
      · have ends := congrArg List.getLast? split
        simp only [List.getLast?_concat,List.getLast?_cons_cons,List.getLast?_singleton,Option.some.injEq] at ends
        exact absurd ends new
    exact inv c m₁ m₂ older same

theorem ordered_step {s s' : System} {label : Label} {a : ActorId} (sane : Sane s) (lanes : Lanes s)
    (once : ∀ m, forwarded a m s ≤ 1) (runs : Runs a s) (running : Running a s) (inv : Ordered a s)
    (condition : OneAtATime a s label) (move : Move s label s') : Ordered a s' := by
  have carriedOnce : ∀ m, carried a m s ≤ 1 := by
    intro m
    have := once m
    unfold forwarded at this
    omega
  cases move with
  | @worker i _ _ w w' _ found moves =>
    cases moves with
    | look _ still =>
      refine ordered_next inv rfl (.inl rfl) (fun c m₁ m₂ _ _ other listed held => ?_)
      rcases List.mem_or_eq_of_mem_set listed with old | rfl
      · exact .inl ⟨other,old,held⟩
      · rw [owedBy_free still] at held
        cases held
    | @take _ lane task rest _ head holds pops =>
      refine ordered_next inv rfl (.inl rfl) (fun c m₁ m₂ order same other listed held => ?_)
      rcases List.mem_or_eq_of_mem_set listed with old | rfl
      · exact .inl ⟨other,old,held⟩
      · simp only [owedBy,holds] at held
        split at held
        · next mine =>
          exact .inr (taken_last sane lanes carriedOnce running condition found pops head order same mine held)
        · cases held
    | work holds steps => exact ordered_work runs running inv found holds steps
  | client found moves =>
    cases moves with
    | enter =>
      obtain ⟨_,same⟩ := enter_frame s.shared _
      rw [same]
      exact inv
    | enqueue => exact ordered_enqueue once running inv found rfl rfl
    | _ => exact inv
  | start_worker free =>
    refine ordered_next inv rfl (.inl rfl) (fun c m₁ m₂ _ _ other listed held => ?_)
    rcases List.mem_append.mp listed with old | new
    · exact .inl ⟨other,old,held⟩
    · rw [List.mem_singleton.mp new,owedBy_free free] at held
      cases held
  | drop_send | spawn | receive | set_running => exact inv

theorem running_step {s s' : System} {label : Label} {a : ActorId} (accepted : Accepted a s) (runs : Runs a s)
    (next : Runs a s') (inv : Running a s) (move : Move s label s') : Running a s' := by
  have spares : ∀ m, Spares a m s label := by
    intro m
    cases label with
    | worker i execution moved =>
      intro w job found holds mine
      subst mine
      exact awake_spared (inv.awake w (List.mem_of_getElem? found) job holds rfl) runs m
    | _ => trivial
  refine ⟨rooted_step accepted inv.rooted (runs_alive runs) (runs_alive next) move,?_,?_,?_⟩
  · cases move with
    | @worker i _ _ w w' _ found moves =>
      intro other listed job holds mine
      rcases List.mem_or_eq_of_mem_set listed with old | rfl
      · exact inv.awake other old job holds mine
      · cases moves with
        | look _ still => rw [still] at holds; cases holds
        | take _ _ starts =>
          rw [starts] at holds
          cases holds
          exact ⟨rfl,trivial⟩
        | @work _ before _ held steps =>
          rw [holds] at steps
          have same : before.actor_id = a := (job_hand steps).1.symm.trans mine
          subst same
          exact job_awake (inv.awake w (List.mem_of_getElem? found) before held rfl) runs steps
    | start_worker free =>
      intro w member job holds
      rcases List.mem_append.mp member with old | new
      · exact inv.awake w old job holds
      · rw [List.mem_singleton.mp new,free] at holds
        cases holds
    | client | drop_send | spawn | receive | set_running => exact inv.awake
  · cases move with
    | worker _ moves =>
      cases moves with
      | look | take => exact inv.kept
      | @work _ job _ _ steps =>
        cases step_effect steps with
        | @requeued m _ asleep =>
          intro m' member
          rcases List.mem_append.mp member with old | new
          · exact inv.kept m' old
          · cases List.mem_singleton.mp new
            simpa [Active] using runs _ asleep
        | _ => exact inv.kept
    | client _ moves =>
      cases moves with
      | enter =>
        obtain ⟨_,same⟩ := enter_frame s.shared _
        rw [same]
        exact inv.kept
      | _ => exact inv.kept
    | _ => exact inv.kept
  · intro m
    have step := accounted_step inv.rooted (runs_alive runs) (spares m) move
    have same := inv.account m
    omega

/-- In a run where the actor keeps running and its workers take turns, messages of
    one client with one priority are executed in the order they were sent. -/
theorem executed_in_order {config : SchedulerConfig} (fits : config.mailbox_config.capacity < 2 ^ 64) {n : Nat}
    {a : ActorId} {s : System}
    (reached : Reach System.step (fun s label => Runs a s ∧ OneAtATime a s label) (.init config n) s) (last : Runs a s)
    {c : Nat} {m₁ m₂ : Message} (order : [(c,task_of a m₁ []),(c,task_of a m₂ [])].Sublist s.shared.history.enqueued)
    (same : m₁.priority = m₂.priority) {before after : List (ActorId × Message)}
    (executes : s.shared.history.executed = before ++ (a,m₂) :: after) : (a,m₁) ∈ before := by
  have inv : Running a s ∧ Ordered a s := by
    clear order executes
    induction reached with
    | start =>
      refine ⟨⟨rooted_init config n a,?_,?_,accounted_start config n a⟩,?_⟩
      · intro w member; cases member
      · intro m member; cases member
      · intro c m₁ m₂ order
        cases order.subset List.mem_cons_self
    | next earlier allowed stepped ih =>
      obtain ⟨-,sane⟩ := sane_reach fits earlier
      have move := (step_move sane.toNoLocal stepped).1
      obtain ⟨running,ordered⟩ := ih allowed.1
      exact ⟨running_step (accepted_reach fits a earlier) allowed.1 last running move,
        ordered_step sane (lanes_reach fits earlier) (fun m => carried_once fits a m earlier) allowed.1 running ordered
          allowed.2 move⟩
  exact (inv.2 c m₁ m₂ order same).2 before after executes

/-! ## Two workers and two messages -/

def earlier : Message := ⟨none,.Custom [1],.Normal,0⟩
def later : Message := ⟨none,.Custom [2],.Normal,1⟩

/-- A client starts an actor that has an executor and two workers, and sends it
    two messages. -/
def bothSent : List Label :=
  let send (m : Message) : List Label := List.replicate 6 (.client 0 (.send ⟨1⟩ m) true)
  [.spawn ⟨1⟩ none,.set_running true,.start_worker 0,.start_worker 1] ++
    List.replicate 2 (.client 0 (.set_actor_state ⟨1⟩ .Running) true) ++ send earlier ++ send later

/-- The second worker takes its task after the first one has executed. -/
def inTurn : List Label :=
  let work (i n : Nat) : List Label := List.replicate n (.worker i (.returns .Success) 0)
  bothSent ++ work 0 9 ++ work 1 9

theorem executed_in_order_in_turn : ∃ s, Reach System.step (fun s label => Runs ⟨1⟩ s ∧ OneAtATime ⟨1⟩ s label)
    (.init { executor := true } 1) s ∧ (⟨1⟩,later) ∈ s.shared.history.executed ∧
    ∀ before after, s.shared.history.executed = before ++ (⟨1⟩,later) :: after → (⟨1⟩,earlier) ∈ before := by
  have seen : (run (fun s label => if Runs ⟨1⟩ s ∧ OneAtATime ⟨1⟩ s label then s.step label else none)
      (.init { executor := true } 1) inTurn).map (fun s => (decide (Runs ⟨1⟩ s),s.shared.history.enqueued,
        s.shared.history.executed)) =
      some (true,[(0,task_of ⟨1⟩ earlier []),(0,task_of ⟨1⟩ later [])],[(⟨1⟩,earlier),(⟨1⟩,later)]) := by decide +kernel
  obtain ⟨s,runs,same⟩ := Option.map_eq_some_iff.mp seen
  simp only [Prod.mk.injEq,decide_eq_true_eq] at same
  obtain ⟨running,enqueued,executed⟩ := same
  have checked : Reach System.step (fun s label => True ∧ Runs ⟨1⟩ s ∧ OneAtATime ⟨1⟩ s label)
      (.init { executor := true } 1) s := reach_checked .start (fun _ _ _ => trivial) runs
  have reached := checked.mono (fun _ _ allowed => allowed.2)
  have order : [(0,task_of ⟨1⟩ earlier []),(0,task_of ⟨1⟩ later [])].Sublist s.shared.history.enqueued := by
    rw [enqueued]
  refine ⟨s,reached,by simp [executed],fun before after executes => ?_⟩
  exact executed_in_order (by decide) reached running order rfl executes

/-- Both workers hold a task, and the second one executes first. -/
def overtaking : List Label :=
  let work (i n : Nat) : List Label := List.replicate n (.worker i (.returns .Success) 0)
  bothSent ++ work 0 7 ++ work 1 9

/-- The actor is running from the first call that sends something. -/
def StaysRunning (a : ActorId) (s : System) : Prop :=
  s.shared.history.next_uid = 0 ∨ s.shared.registry.get_state a = some .Running

instance (a : ActorId) (s : System) : Decidable (StaysRunning a s) := inferInstanceAs (Decidable (_ ∨ _))

theorem later_executed_first : ∃ s, Reach System.step (fun s _ => StaysRunning ⟨1⟩ s) (.init { executor := true } 1) s ∧
    StaysRunning ⟨1⟩ s ∧ earlier.priority = later.priority ∧
    [(0,task_of ⟨1⟩ earlier []),(0,task_of ⟨1⟩ later [])].Sublist s.shared.history.enqueued ∧
    s.shared.history.executed = [(⟨1⟩,later)] := by
  have seen : (run (fun s label => if StaysRunning ⟨1⟩ s then s.step label else none) (.init { executor := true } 1)
      overtaking).map (fun s => (decide (StaysRunning ⟨1⟩ s),s.shared.history.enqueued,s.shared.history.executed)) =
      some (true,[(0,task_of ⟨1⟩ earlier []),(0,task_of ⟨1⟩ later [])],[(⟨1⟩,later)]) := by decide +kernel
  obtain ⟨s,runs,same⟩ := Option.map_eq_some_iff.mp seen
  simp only [Prod.mk.injEq,decide_eq_true_eq] at same
  obtain ⟨running,enqueued,executed⟩ := same
  have checked : Reach System.step (fun s _ => True ∧ StaysRunning ⟨1⟩ s) (.init { executor := true } 1) s :=
    reach_checked .start (fun _ _ _ => trivial) runs
  exact ⟨s,checked.mono (fun _ _ allowed => allowed.2),running,rfl,by rw [enqueued],executed⟩

end ActorKit.Fifo
