import ActorKit.Lib.Counting
import ActorKit.Moves

/-!
# Priority inversion

A worker looks into the lanes one after the other, from the most urgent one on,
while tasks keep arriving. A waiting task is therefore overtaken by less urgent
ones, but by no more of them than there are workers that had already looked into
its lane; within its lane tasks are taken in order.
-/

namespace ActorKit.Overtaking
open ActorKit.mailbox ActorKit.registry ActorKit.queue ActorKit.scheduler ActorKit.Moves ActorKit.Transition

/-- When the worker loop looks into a lane within one round. -/
def turn : Lane → Nat
  | .critical => 0
  | .high => 1
  | .normal => 2
  | .low => 3
  | .global => 4

/-- A worker that has already looked into a lane in this round and has not taken a
    task since. -/
def past (lane : Lane) (w : Worker) : Bool :=
  match w.pc with
  | .pop other => turn lane < turn other
  | .pop_local => turn lane < turn .global
  | .steal .. | .steal_batch .. | .push_local .. => true
  | .head | .version | .refresh .. | .process .. | .exited => false

/-- The tasks of a lane. -/
def ofLane (config : SchedulerConfig) (lane : Lane) (tasks : List Task) : List Task :=
  tasks.filter (fun task => lane_of config.priority_scheduling task = lane)

/-- The tasks of the lanes behind it. -/
def behind (config : SchedulerConfig) (lane : Lane) (tasks : List Task) : List Task :=
  tasks.filter (fun task => turn lane < turn (lane_of config.priority_scheduling task))

@[simp] theorem behind_append (config : SchedulerConfig) (lane : Lane) (tasks more : List Task) :
    behind config lane (tasks ++ more) = behind config lane tasks ++ behind config lane more :=
  List.filter_append ..

/-- Every queued task is in the lane it was pushed to. -/
def Laned (s : System) : Prop :=
  ∀ lane, ∀ task ∈ s.shared.injectors.get lane, lane_of s.config.priority_scheduling task = lane

/-! ## One step -/

/-- A worker takes the head of the lane it looks into, or it takes nothing, and
    then it does not come past a lane that holds a task. -/
theorem worker_turn {config : SchedulerConfig} {g g' : Shared} {w w' : Worker} {execution : Execution} {moved : Nat}
    (empty : ∀ d ∈ g.deques, d = []) (carried : carries w = false) (stepped : w.step config g execution moved = some (g',w')) :
    (g'.injectors = g.injectors ∧ g'.history.taken = g.history.taken ∧
      ∀ lane, g.injectors.get lane ≠ [] → past lane w' = true → past lane w = true) ∨
    ∃ other task rest, w.pc = .pop other ∧ g.injectors.get other = task :: rest ∧
      g'.injectors = g.injectors.set other rest ∧ g'.history.taken = g.history.taken ++ [task] ∧
      ∀ lane, past lane w' = false := by
  obtain ⟨worker_id,deque,iteration,last_version,stealers,index,pc⟩ := w
  cases pc with
  | exited => cases stepped
  | head =>
    simp only [Worker.step] at stepped
    split at stepped
    · cases stepped
      exact .inl ⟨rfl,rfl,by simp [past]⟩
    · split at stepped <;> cases stepped <;> exact .inl ⟨rfl,rfl,by simp [past,turn]⟩
  | version =>
    simp only [Worker.step] at stepped
    split at stepped <;> cases stepped <;> exact .inl ⟨rfl,rfl,by simp [past,turn]⟩
  | refresh current =>
    cases stepped
    exact .inl ⟨rfl,rfl,by simp [past,turn]⟩
  | pop other =>
    simp only [Worker.step] at stepped
    split at stepped
    · next task rest found =>
      cases stepped
      exact .inr ⟨other,task,rest,rfl,found,rfl,rfl,fun _ => rfl⟩
    · next missed =>
      cases stepped
      refine .inl ⟨rfl,rfl,fun lane filled => ?_⟩
      have apart : lane ≠ other := by
        rintro rfl
        exact filled missed
      cases lane <;> cases other <;> simp [past,turn,Worker.after_lane,Worker.rotated] at apart ⊢
  | pop_local =>
    simp only [Worker.step] at stepped
    split at stepped
    · next found => exact absurd found (local_head empty)
    · cases stepped
      exact .inl ⟨rfl,rfl,fun _ _ later => later⟩
  | steal victims =>
    simp only [Worker.step] at stepped
    split at stepped
    · cases stepped
      exact .inl ⟨rfl,rfl,fun _ _ _ => rfl⟩
    · split at stepped
      · next found => exact absurd found (local_head empty)
      · cases stepped
        exact .inl ⟨rfl,rfl,fun _ _ _ => rfl⟩
  | steal_batch victim victims stolen =>
    simp only [Worker.step] at stepped
    split at stepped
    · next found => exact absurd found (local_head empty)
    · cases stepped
      exact .inl ⟨rfl,rfl,fun _ _ _ => rfl⟩
  | push_local => cases carried
  | process job =>
    have frame := effect_frame (@step_effect config g _ job execution _ rfl)
    simp only [Worker.step] at stepped
    split at stepped <;> cases stepped <;> exact .inl ⟨frame.injectors,frame.taken,by simp [past]⟩

/-- A client only adds tasks, each to its own lane. -/
theorem client_turn {config : SchedulerConfig} {g g' : Shared} {i : Nat} {call : Call} {c c' : Client}
    (moves : ClientMove config g i call c g' c') :
    g'.history.taken = g.history.taken ∧ (g'.injectors = g.injectors ∨
      ∃ task, g'.injectors = g.injectors.push config.priority_scheduling task) := by
  cases moves with
  | enter =>
    obtain ⟨next,same⟩ := enter_frame g call
    rw [same]
    exact ⟨rfl,.inl rfl⟩
  | enqueue => exact ⟨rfl,.inr ⟨_,rfl⟩⟩
  | _ => exact ⟨rfl,.inl rfl⟩

theorem push_get (q : Injectors) (priority_scheduling : Bool) (task : Task) (lane : Lane) :
    (q.push priority_scheduling task).get lane =
      q.get lane ++ if lane_of priority_scheduling task = lane then [task] else [] := by
  by_cases same : lane_of priority_scheduling task = lane
  · subst same
    simp [Injectors.push]
  · simp [Injectors.push,Ne.symm same,same]

/-- What a step does to the lanes. -/
inductive Turned (lane : Lane) (s s' : System) : Prop where
  | still (injectors : s'.shared.injectors = s.shared.injectors) (taken : s'.shared.history.taken = s.shared.history.taken)
      (fewer : s.shared.injectors.get lane ≠ [] → s'.workers.countP (past lane) ≤ s.workers.countP (past lane))
  | arrives {task : Task} (pushed : s'.shared.injectors = s.shared.injectors.push s.config.priority_scheduling task)
      (taken : s'.shared.history.taken = s.shared.history.taken) (same : s'.workers = s.workers)
  | leaves {other : Lane} {task : Task} {rest : List Task} (head : s.shared.injectors.get other = task :: rest)
      (popped : s'.shared.injectors = s.shared.injectors.set other rest)
      (taken : s'.shared.history.taken = s.shared.history.taken ++ [task])
      (fewer : s'.workers.countP (past lane) + (if turn lane < turn other then 1 else 0) ≤ s.workers.countP (past lane))

theorem step_turn {s s' : System} {label : Label} (lane : Lane) (noLocal : NoLocal s) (stepped : s.step label = some s') :
    Turned lane s s' := by
  cases label with
  | worker i execution moved =>
    obtain ⟨w,found,rest⟩ := Option.bind_eq_some_iff.mp stepped
    obtain ⟨⟨g',w'⟩,steps,same⟩ := Option.bind_eq_some_iff.mp rest
    cases same
    have count := Counting.countP_set (p := past lane) found w'
    rcases worker_turn noLocal.empty (noLocal.carried w (List.mem_of_getElem? found)) steps with
      ⟨injectors,taken,keeps⟩ | ⟨other,task,rest,looks,head,popped,taken,again⟩
    · refine .still injectors taken (fun filled => ?_)
      show (s.workers.set i w').countP (past lane) ≤ _
      by_cases after : past lane w' = true
      · simp only [after,keeps lane filled after,if_true] at count
        omega
      · simp only [after,if_false,Bool.false_eq_true] at count
        omega
    · have before : past lane w = decide (turn lane < turn other) := by simp [past,looks]
      refine .leaves head popped taken ?_
      show (s.workers.set i w').countP (past lane) + _ ≤ _
      simp only [again lane,before,decide_eq_true_eq,Bool.false_eq_true,if_false] at count
      omega
  | start_worker worker_id =>
    cases stepped
    exact .still rfl rfl (fun _ => by simp [past])
  | client i call admitted =>
    obtain ⟨move,-⟩ := step_move noLocal stepped
    cases move with
    | client found moves =>
      obtain ⟨taken,same | ⟨task,pushed⟩⟩ := client_turn moves
      · exact .still same taken (fun _ => Nat.le_refl _)
      · exact .arrives pushed taken rfl
  | drop_send i =>
    obtain ⟨move,-⟩ := step_move noLocal stepped
    cases move
    exact .still rfl rfl (fun _ => Nat.le_refl _)
  | spawn id name =>
    obtain ⟨move,-⟩ := step_move noLocal stepped
    cases move
    exact .still rfl rfl (fun _ => Nat.le_refl _)
  | receive id =>
    cases stepped
    exact .still rfl rfl (fun _ => Nat.le_refl _)
  | set_running running =>
    cases stepped
    exact .still rfl rfl (fun _ => Nat.le_refl _)

theorem laned_step {s s' : System} {label : Label} (noLocal : NoLocal s) (laned : Laned s)
    (stepped : s.step label = some s') : Laned s' := by
  intro lane task member
  rw [config_step stepped]
  cases step_turn lane noLocal stepped with
  | still injectors =>
    rw [injectors] at member
    exact laned lane task member
  | @arrives new pushed =>
    rw [pushed,push_get] at member
    rcases List.mem_append.mp member with old | arrived
    · exact laned lane task old
    · split at arrived
      · next own =>
        rw [List.mem_singleton.mp arrived]
        exact own
      · cases arrived
  | @leaves other head rest found popped =>
    rw [popped,Injectors.get_set] at member
    split at member
    · next same =>
      subst same
      exact laned lane task (by rw [found]; exact List.mem_cons_of_mem _ member)
    · exact laned lane task member

/-! ## A waiting task -/

/-- How a task stands that waited behind the tasks `front` of its lane in the state
    `s`. -/
inductive Standing (lane : Lane) (front : List Task) (task : Task) (s s' : System) : Prop where
  | waiting (taken ahead back : List Task) (grown : s'.shared.history.taken = s.shared.history.taken ++ taken)
      (served : ofLane s.config lane taken ++ ahead = front) (queued : s'.shared.injectors.get lane = ahead ++ task :: back)
      (overtaken : (behind s.config lane taken).length + s'.workers.countP (past lane) ≤ s.workers.countP (past lane))
  | taken (before after : List Task) (grown : s'.shared.history.taken = s.shared.history.taken ++ before ++ task :: after)
      (served : ofLane s.config lane before = front)
      (overtaken : (behind s.config lane before).length ≤ s.workers.countP (past lane))

theorem standing_step {s t t' : System} {label : Label} {lane : Lane} {front : List Task} {task : Task}
    (same : t.config = s.config) (noLocal : NoLocal t) (laned : Laned t) (standing : Standing lane front task s t)
    (stepped : t.step label = some t') : Standing lane front task s t' := by
  have turned := step_turn lane noLocal stepped
  cases standing with
  | waiting taken ahead back grown served queued overtaken =>
    have filled : t.shared.injectors.get lane ≠ [] := by simp [queued]
    cases turned with
    | still injectors more fewer =>
      exact .waiting taken ahead back (more.trans grown) served (by rw [injectors,queued]) (by have := fewer filled; omega)
    | @arrives new pushed more workers =>
      refine .waiting taken ahead (back ++ if lane_of t.config.priority_scheduling new = lane then [new] else [])
        (more.trans grown) served ?_ (by rw [workers]; exact overtaken)
      rw [pushed,push_get,queued,List.append_assoc,List.cons_append]
    | @leaves other new rest head popped more fewer =>
      have own : lane_of s.config.priority_scheduling new = other := by
        rw [← same]
        exact laned other new (by rw [head]; exact List.mem_cons_self)
      by_cases mine : other = lane
      · subst mine
        rw [queued] at head
        have level : (if turn other < turn other then 1 else 0) = 0 := by simp
        cases ahead with
        | nil =>
          obtain ⟨rfl,rfl⟩ := List.cons.inj head
          refine .taken taken [] (more.trans (by rw [grown])) (by simpa using served) ?_
          omega
        | cons first ahead =>
          obtain ⟨rfl,rfl⟩ := List.cons.inj head
          refine .waiting (taken ++ [first]) ahead back (more.trans (by rw [grown,List.append_assoc])) ?_ (by rw [popped]; simp) ?_
          · rw [← served]
            simp [ofLane,own]
          · simp only [behind_append,List.length_append]
            simp only [behind,List.filter_cons,own,Nat.lt_irrefl,decide_false,List.filter_nil,Bool.false_eq_true,if_false,
              List.length_nil]
            simp only [behind] at overtaken
            omega
      · refine .waiting (taken ++ [new]) ahead back (more.trans (by rw [grown,List.append_assoc])) ?_
          (by rw [popped,Injectors.get_set,if_neg (Ne.symm mine),queued]) ?_
        · rw [← served]
          simp [ofLane,own,mine]
        · by_cases later : turn lane < turn other
          · simp only [behind_append,List.length_append]
            simp only [behind,List.filter_cons,own,later,decide_true,List.filter_nil,if_true,List.length_singleton] at overtaken fewer ⊢
            omega
          · simp only [behind_append,List.length_append]
            simp only [behind,List.filter_cons,own,later,decide_false,List.filter_nil,Bool.false_eq_true,if_false,
              List.length_nil] at overtaken fewer ⊢
            omega
  | taken before after grown served overtaken =>
    have more : ∃ more, t'.shared.history.taken = t.shared.history.taken ++ more := by
      cases turned with
      | still _ taken => exact ⟨[],by simpa using taken⟩
      | arrives _ taken => exact ⟨[],by simpa using taken⟩
      | leaves _ _ taken => exact ⟨_,taken⟩
    obtain ⟨more,later⟩ := more
    exact .taken before (after ++ more) (by rw [later,grown]; simp) served overtaken

/-- In every run, whatever arrives meanwhile: the tasks in front of a waiting task in
    its lane are taken in order before it, and no more tasks of the lanes behind it
    are than workers had already looked into its lane. -/
theorem overtaking_bounded {config : SchedulerConfig} {n : Nat} {s s' : System}
    (reached : Reachable System.step (.init config n) s) {lane : Lane} {front back : List Task} {task : Task}
    (waits : s.shared.injectors.get lane = front ++ task :: back) (later : Reachable System.step s s') :
    ∃ before after, s'.shared.history.taken = s.shared.history.taken ++ before ++ after ∧
      (behind config lane before).length ≤ s.workers.countP (past lane) ∧
      ((∃ rest, after = task :: rest ∧ ofLane config lane before = front) ∨
        ∃ ahead back', after = [] ∧ ofLane config lane before ++ ahead = front ∧
          s'.shared.injectors.get lane = ahead ++ task :: back') := by
  have keeps : ∀ t label t', (t.config = config ∧ NoLocal t ∧ Laned t) → True → t.step label = some t' →
      t'.config = config ∧ NoLocal t' ∧ Laned t' := by
    rintro t label t' ⟨same,noLocal,laned⟩ - stepped
    exact ⟨(config_step stepped).trans same,(step_move noLocal stepped).2,laned_step noLocal laned stepped⟩
  have starts : Laned (.init config n) := by
    intro lane task member
    cases lane <;> cases member
  have before := reached.invariant ⟨rfl,(sane_init config n).toNoLocal,starts⟩ keeps
  have stands : ∀ t label t', ((t.config = config ∧ NoLocal t ∧ Laned t) ∧ Standing lane front task s t) → True →
      t.step label = some t' → (t'.config = config ∧ NoLocal t' ∧ Laned t') ∧ Standing lane front task s t' := by
    rintro t label t' ⟨inv,standing⟩ - stepped
    exact ⟨keeps t label t' inv trivial stepped,
      standing_step (inv.1.trans before.1.symm) inv.2.1 inv.2.2 standing stepped⟩
  have standing := (later.invariant ⟨before,.waiting [] front back (by simp) rfl waits (by simp [behind])⟩ stands).2
  rw [← before.1]
  cases standing with
  | waiting taken ahead back' grown served queued overtaken =>
    exact ⟨taken,[],by simpa using grown,by omega,.inr ⟨ahead,back',rfl,served,queued⟩⟩
  | taken before after grown served overtaken => exact ⟨before,_,grown,overtaken,.inl ⟨after,rfl,served⟩⟩

/-- A send to the actor, up to its end. -/
def sending (payload : MessagePayload) (priority : Priority) : List Label :=
  List.replicate 6 (.client 0 (.send ⟨1⟩ { sender := none, payload, priority }) true)

/-- A worker has looked into the critical lane when a critical task arrives behind a
    normal one. -/
def lateCritical : List Label :=
  [.start_worker 0,.set_running true,.spawn ⟨1⟩ none] ++ sending (.Custom [1]) .Normal ++
    List.replicate 2 (.worker 0 (.returns .Success) 0) ++ sending (.Custom [2]) .Critical

/-- The normal task is taken first, and no other one can be. -/
theorem overtaking_bounded_late : ∃ s s' before after, Reachable System.step (.init { priority_scheduling := true } 1) s ∧
    Reachable System.step s s' ∧ s.shared.injectors.get .critical ≠ [] ∧ s.workers.countP (past .critical) = 1 ∧
    s'.shared.history.taken = before ++ after ∧ (before ++ after).map (·.message.payload) = [.Custom [1]] ∧
    (behind { priority_scheduling := true } .critical before).length ≤ 1 := by
  let critical : Task := task_of ⟨1⟩ { sender := none, payload := .Custom [2], priority := .Critical, uid := 1 } []
  have seen : (run System.step (.init { priority_scheduling := true } 1) lateCritical).bind (fun s =>
      (run System.step s (List.replicate 5 (.worker 0 (.returns .Success) 0))).map (fun s' =>
        (s.shared.injectors.get .critical,s.shared.history.taken,s.workers.countP (past .critical),
          s'.shared.history.taken.map (·.message.payload)))) =
      some ([] ++ critical :: [],[],1,[.Custom [1]]) := by decide +kernel
  obtain ⟨s,runs,later⟩ := Option.bind_eq_some_iff.mp seen
  obtain ⟨s',more,same⟩ := Option.map_eq_some_iff.mp later
  simp only [Prod.mk.injEq] at same
  obtain ⟨waits,untaken,one,taken⟩ := same
  have reached : Reachable System.step (.init { priority_scheduling := true } 1) s := reachable_run .start runs
  have reached' : Reachable System.step s s' := reachable_run .start more
  obtain ⟨before,after,grown,few,-⟩ := overtaking_bounded reached waits reached'
  rw [untaken,List.nil_append] at grown
  rw [grown] at taken
  exact ⟨s,s',before,after,reached,reached',by simp [waits],one,grown,taken,one ▸ few⟩

end ActorKit.Overtaking
