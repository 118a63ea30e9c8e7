import ActorKit.ExactlyOnce

/-!
# Failures under concurrent workers

`process_single_message` checks the state before it runs the executor and writes
a state afterwards. The failure that another worker writes in between is
overwritten, and this is the only way a worker brings a failed actor back: a
failure lasts exactly when no other worker is past the check with a message that
changes the state.
-/

namespace ActorKit.Failures
open ActorKit.mailbox ActorKit.registry ActorKit.queue ActorKit.scheduler ActorKit.Moves
open ActorKit.Inventory ActorKit.Transition
open ActorKit.ExactlyOnce (sets job_state started sending_payload)

/-- The actor that a worker sets to `Failed` with this step. -/
def failing (s : System) : Label → Option ActorId
  | .worker i _ _ => match (s.workers[i]?).bind holding with
    | some job => match job.stage with
      | .fail | .panic => some job.actor_id
      | _ => none
    | none => none
  | _ => none

/-- A client sets the state of the actor, or kills it, with this step. -/
def byHand (a : ActorId) (s : System) : Label → Bool
  | .client i _ _ => match s.clients[i]? with
    | some (.set_state id _) | some (.kill id) | some (.kill_unregister id) => id = a
    | _ => false
  | _ => false

/-- The actor stays failed until a client says otherwise. -/
def Absorbed (a : ActorId) (s : System) : Prop :=
  ∀ s', Reach System.step (fun s label => byHand a s label = false) s s' → s'.shared.registry.get_state a = some .Failed

/-- A message past the check of the state that may write another state than
    `Failed`. -/
def armed : Stage → Bool
  | .execute m | .control m => (state_change m.payload).isSome
  | .set_state state => state ≠ .Failed
  | _ => false

/-- No worker has such a message of the actor. -/
def Disarmed (a : ActorId) (s : System) : Prop :=
  ∀ w ∈ s.workers, ∀ job, holding w = some job → job.actor_id = a → armed job.stage = false

/-! ## What a disarmed job does to a failed actor -/

theorem finish_disarmed {job next : Job} (done : job.finish = some next) : armed next.stage = false := by
  unfold Job.finish at done
  split at done
  · cases done; rfl
  · split at done <;> cases done
    rfl

theorem success_unchanged {payload : MessagePayload} (quiet : (state_change payload).isSome = false) :
    state_change payload = none ∧ success_change payload = none := by
  cases payload with
  | Start | Stop => cases quiet
  | Custom | Empty => exact ⟨rfl,rfl⟩
  | Signal signal => cases signal <;> cases quiet

theorem state_change_lives {payload : MessagePayload} {state : ActorState} (changes : state_change payload = some state) :
    state ≠ .Failed := by
  rintro rfl
  cases payload with
  | Signal signal => cases signal <;> cases changes
  | _ => cases changes

/-- A disarmed job leaves the actor failed and stays disarmed. -/
theorem job_disarmed {config : SchedulerConfig} {g g' : Shared} {job : Job} {next : Option Job} {execution : Execution}
    (failed : g.registry.get_state job.actor_id = some .Failed) (quiet : armed job.stage = false)
    (steps : job.step config g execution = (g',next)) :
    g'.registry.get_state job.actor_id = some .Failed ∧ ∀ job', next = some job' → armed job'.stage = false := by
  constructor
  · rcases job_state steps with same | ⟨state,set,written⟩
    · exact same.trans failed
    · rw [written,failed]
      obtain ⟨id,batch,rest,depth,stage⟩ := job
      cases stage with
      | set_state target =>
        cases set
        simpa [armed] using quiet
      | control m =>
        have changes : state_change m.payload = some state := set
        simp [armed,changes] at quiet
      | fail | panic =>
        cases set
        rfl
      | _ => cases set
  · intro job' after
    obtain ⟨id,batch,rest,depth,stage⟩ := job
    have state : g.registry.get_state id = some .Failed := failed
    cases job_move steps with
    | awake active => simp [state] at active
    | asleep_control asleep | asleep_requeue asleep => simp [state] at asleep
    | woken active => simp [state] at active
    | @handled m change changes =>
      obtain ⟨unchanged,succeeds⟩ := success_unchanged quiet
      have nothing : change = none := by
        rcases changes with rfl | ⟨-,-,rfl⟩
        · exact unchanged
        · exact succeeds
      rw [nothing] at after
      cases after
      rfl
    | absent | unboxed | releases | fail_unboxed | fail_clears | unwoken | drain_unboxed | drain_ends | pop_ends
      | requeue_unboxed | requeue_pushes => exact finish_disarmed after
    | batch_next viable => exact absurd state viable.1
    | batch_abandoned | batch_done | panic_unboxed | panic_clears => cases after
    | _ =>
      cases after
      rfl

/-! ## Runs after a failure -/

/-- A failed actor that no worker is about to bring back. -/
structure Down (a : ActorId) (s : System) : Prop extends NoLocal s where
  failed : s.shared.registry.get_state a = some .Failed
  disarmed : Disarmed a s

theorem unregister_state {r : ActorRegistry} {id a : ActorId} (other : a ≠ id) :
    (r.unregister id).1.get_state a = r.get_state a := by
  rw [ActorRegistry.get_state,unregister_other r other,ActorRegistry.get_state]

theorem down_worker {s : System} {a : ActorId} {i : Nat} {execution : Execution} {w w' : Worker} {g' : Shared}
    (inv : Down a s) (found : s.workers[i]? = some w) (moves : WorkerMove s.config s.shared w execution g' w') :
    g'.registry.get_state a = some .Failed ∧ Disarmed a { s with shared := g', workers := s.workers.set i w' } := by
  have member := List.mem_of_getElem? found
  have others : (∀ job, holding w' = some job → job.actor_id = a → armed job.stage = false) →
      Disarmed a { s with shared := g', workers := s.workers.set i w' } := by
    intro own v listed
    rcases List.mem_or_eq_of_mem_set listed with old | rfl
    · exact inv.disarmed v old
    · exact own
  cases moves with
  | look free still => exact ⟨inv.failed,others (by simp [still])⟩
  | take free head holds pops =>
    refine ⟨inv.failed,others ?_⟩
    intro job same _
    rw [holds] at same
    cases same
    rfl
  | @work _ job _ holds steps =>
    by_cases mine : job.actor_id = a
    · subst mine
      obtain ⟨failed,quiet⟩ := job_disarmed inv.failed (inv.disarmed w member job holds rfl) steps
      exact ⟨failed,others (fun job' next _ => quiet job' next)⟩
    · have frame := effect_frame (step_effect steps)
      refine ⟨(frame.states a (Ne.symm mine)).trans inv.failed,others ?_⟩
      intro job' next same
      rw [next] at steps
      exact absurd ((job_hand steps).1.symm.trans same) mine

theorem down_client {s : System} {a : ActorId} {i : Nat} {call : Call} {admitted : Bool} {c c' : Client} {g' : Shared}
    (failed : s.shared.registry.get_state a = some .Failed) (aside : byHand a s (.client i call admitted) = false)
    (found : s.clients[i]? = some c) (moves : ClientMove s.config s.shared i call c g' c') :
    g'.registry.get_state a = some .Failed := by
  simp only [byHand,found] at aside
  cases moves with
  | enter =>
    obtain ⟨next,same⟩ := enter_frame s.shared call
    rw [same]
    exact failed
  | look | accept | refuse | enqueue | clear => exact failed
  | set_state | kill =>
    have other := Ne.symm (of_decide_eq_false aside)
    rw [Shared.set_state,get_state_set,if_neg other]
    exact failed
  | unregister => exact (unregister_state (Ne.symm (of_decide_eq_false aside))).trans failed

theorem down_step {s s' : System} {label : Label} {a : ActorId} (inv : Down a s) (aside : byHand a s label = false)
    (stepped : s.step label = some s') : Down a s' := by
  obtain ⟨move,noLocal⟩ := step_move inv.toNoLocal stepped
  refine ⟨noLocal,?_,?_⟩
  · cases move with
    | worker found moves => exact (down_worker inv found moves).1
    | client found moves => exact down_client inv.failed aside found moves
    | drop_send | receive | start_worker | set_running => exact inv.failed
    | @spawn id name fresh =>
      rcases register_cases s.shared.registry id name with same | ⟨absent,by_name,added⟩
      · rw [same]
        exact inv.failed
      · have other : a ≠ id := by
          rintro rfl
          have failed := inv.failed
          simp [ActorRegistry.get_state,absent] at failed
        rw [added]
        simpa [ActorRegistry.get_state,AList.lookup_insert_ne other] using inv.failed
  · cases move with
    | worker found moves => exact (down_worker inv found moves).2
    | client | drop_send | spawn | receive | set_running => exact inv.disarmed
    | @start_worker worker_id w free =>
      intro v listed job holds
      rcases List.mem_append.mp listed with old | new
      · exact inv.disarmed v old job holds
      · rw [List.mem_singleton.mp new,free] at holds
        cases holds

theorem down_absorbed {a : ActorId} {s : System} (down : Down a s) : Absorbed a s := by
  intro s' reached
  exact (reached.invariant down (fun _ _ _ inv aside stepped => down_step inv aside stepped)).failed

/-! ## An armed worker overrules a failure -/

/-- One call of a worker that processes a task. -/
theorem process_step {s : System} {j : Nat} {w : Worker} {job : Job} (found : s.workers[j]? = some w)
    (holds : holding w = some job) (execution : Execution) :
    ∃ w', s.step (.worker j execution 0) = some { s with
        shared := (job.step s.config s.shared execution).1
        workers := s.workers.set j w' } ∧ holding w' = (job.step s.config s.shared execution).2 := by
  obtain ⟨worker_id,deque,iteration,last_version,stealers,index,pc⟩ := w
  cases pc with
  | process own =>
    cases holds
    cases steps : job.step s.config s.shared execution with
    | mk g' next =>
      cases next with
      | none =>
        refine ⟨⟨worker_id,deque,iteration,last_version,stealers,index,.head⟩,?_,rfl⟩
        simp [System.step,found,Worker.step,steps]
      | some job' =>
        refine ⟨⟨worker_id,deque,iteration,last_version,stealers,index,.process job'⟩,?_,rfl⟩
        simp [System.step,found,Worker.step,steps]
  | _ => cases holds

/-- What holds in all continuations holds in those of a step. -/
theorem absorbed_next {a : ActorId} {s s' : System} {label : Label} (absorbed : Absorbed a s)
    (aside : byHand a s label = false) (stepped : s.step label = some s') : Absorbed a s' := by
  intro t reached
  refine absorbed t ?_
  induction reached with
  | start => exact .next .start aside stepped
  | next _ allowed stepped ih => exact .next ih allowed stepped

theorem writes_overrule {a : ActorId} {s : System} {j : Nat} {w : Worker} {job : Job} {state : ActorState}
    (found : s.workers[j]? = some w) (holds : holding w = some job)
    (writes : (job.step s.config s.shared .panics).1 = s.shared.set_state a state) (other : state ≠ .Failed) :
    ¬ Absorbed a s := by
  intro absorbed
  obtain ⟨w',stepped,-⟩ := process_step found holds .panics
  have before : s.shared.registry.get_state a = some .Failed := absorbed s .start
  have after := absorbed _ (.next .start rfl stepped)
  simp only [writes,Shared.set_state,get_state_set,before,if_true,Option.map_some,Option.some.injEq] at after
  exact other after

/-- A worker past the check of the state goes on and writes its own. -/
theorem armed_overrules {a : ActorId} {s : System} {j : Nat} {w : Worker} {job : Job} (found : s.workers[j]? = some w)
    (holds : holding w = some job) (mine : job.actor_id = a) (ready : armed job.stage = true) : ¬ Absorbed a s := by
  obtain ⟨id,batch,rest,depth,stage⟩ := job
  subst mine
  cases stage with
  | set_state state => exact writes_overrule found holds rfl (by simpa [armed] using ready)
  | control m =>
    obtain ⟨state,changes⟩ := Option.isSome_iff_exists.mp ready
    exact writes_overrule found holds (by simp [Job.step,changes]) (state_change_lives changes)
  | execute m =>
    intro absorbed
    obtain ⟨state,changes⟩ := Option.isSome_iff_exists.mp ready
    -- Without an executor, or when it answers `NotReady`, the state change is written next.
    obtain ⟨w',stepped,next⟩ := process_step found holds (.returns .NotReady)
    have goes : (Job.step s.config s.shared ⟨id,batch,rest,depth,.execute m⟩ (.returns .NotReady)).2 =
        some ⟨id,batch,rest,depth,.set_state state⟩ := by
      simp only [Job.step,changes]
      split <;> rfl
    rw [goes] at next
    have later : (s.workers.set j w')[j]? = some w' :=
      List.getElem?_set_self (List.getElem?_eq_some_iff.mp found).1
    exact writes_overrule later next rfl (state_change_lives changes) (absorbed_next absorbed rfl stepped)
  | _ => cases ready

/-- The job that fails its actor goes on to clear the mailbox. -/
theorem failing_job {s : System} {i : Nat} {execution : Execution} {moved : Nat} {a : ActorId} {w : Worker}
    (here : s.workers[i]? = some w) (fails : failing s (.worker i execution moved) = some a) :
    ∃ job, holding w = some job ∧ armed job.stage = false ∧
      ∀ config g g' execution next, job.step config g execution = (g',some next) → armed next.stage = false := by
  cases holds : holding w with
  | none => simp [failing,here,holds] at fails
  | some job =>
    obtain ⟨id,batch,rest,depth,stage⟩ := job
    simp only [failing,here,holds,Option.bind_some] at fails
    cases stage with
    | fail | panic =>
      refine ⟨_,rfl,rfl,?_⟩
      intro config g g' execution next steps
      cases steps
      rfl
    | _ => cases fails

/-- A failure that a worker writes lasts, whatever the workers do, exactly when no
    worker is past the check with a message of the actor that changes the
    state. -/
theorem failure_absorbed_iff {config : SchedulerConfig} {n : Nat} {s s' : System} {label : Label} {a : ActorId}
    (reached : Reachable System.step (.init config n) s) (fails : failing s label = some a)
    (stepped : s.step label = some s') (failed : s'.shared.registry.get_state a = some .Failed) :
    Absorbed a s' ↔ Disarmed a s := by
  have noLocal : NoLocal s := reached.invariant (sane_init config n).toNoLocal
    (fun _ _ _ inv _ stepped => (step_move inv stepped).2)
  cases label with
  | worker i execution moved =>
    obtain ⟨w,here,rest⟩ := Option.bind_eq_some_iff.mp stepped
    obtain ⟨⟨g',w'⟩,moves,same⟩ := Option.bind_eq_some_iff.mp rest
    cases same
    obtain ⟨job,holds,unarmed,clears⟩ := failing_job here fails
    constructor
    · intro absorbed v listed job' busy mine
      by_contra ready
      obtain ⟨j,found⟩ := List.getElem?_of_mem listed
      by_cases own : j = i
      · subst own
        rw [here] at found
        cases found
        rw [holds] at busy
        cases busy
        exact ready unarmed
      · have later : (s.workers.set i w')[j]? = some v := by rw [List.getElem?_set_ne (Ne.symm own)]; exact found
        exact armed_overrules later busy mine (by simpa using ready) absorbed
    · intro disarmed
      refine down_absorbed ⟨(step_move noLocal stepped).2,failed,?_⟩
      intro v listed job' busy mine
      rcases List.mem_or_eq_of_mem_set listed with old | rfl
      · exact disarmed v old job' busy mine
      · have work := (worker_move noLocal.empty (noLocal.carried w (List.mem_of_getElem? here)) moves).1
        cases work with
        | look free | take free => rw [holds] at free; cases free
        | work own steps =>
          rw [holds] at own
          cases own
          rw [busy] at steps
          exact clears _ _ _ _ _ steps
  | _ => cases fails

/-- Two workers run the executor on one message each; the second message fails. -/
def concurrently (payload : MessagePayload) : List Label :=
  started ++ [.start_worker 1] ++ sending_payload payload ++ sending_payload (.Custom [2]) ++
    List.replicate 9 (.worker 0 (.returns .Success) 0) ++ List.replicate 9 (.worker 1 (.returns .Failed) 0)

/-- The first worker is past the check with an ordinary message. -/
theorem failure_absorbed_iff_ordinary : ∃ s s', Reachable System.step (.init { executor := true } 1) s ∧
    failing s (.worker 1 .panics 0) = some ⟨1⟩ ∧ s.step (.worker 1 .panics 0) = some s' ∧
    s.workers.map (fun w => (holding w).map (·.stage)) = [some .record,some .fail] ∧ Absorbed ⟨1⟩ s' := by
  have seen : (run System.step (.init { executor := true } 1) (concurrently (.Custom [1]))).bind (fun s =>
      (s.step (.worker 1 .panics 0)).map (fun s' => (failing s (.worker 1 .panics 0),
        s'.shared.registry.get_state ⟨1⟩,s.workers.map (fun w => (holding w).map (·.stage))))) =
      some (some ⟨1⟩,some .Failed,[some .record,some .fail]) := by decide +kernel
  obtain ⟨s,runs,later⟩ := Option.bind_eq_some_iff.mp seen
  obtain ⟨s',stepped,same⟩ := Option.map_eq_some_iff.mp later
  simp only [Prod.mk.injEq] at same
  obtain ⟨fails,failed,stages⟩ := same
  have reached : Reachable System.step (.init { executor := true } 1) s := reachable_run .start runs
  refine ⟨s,s',reached,fails,stepped,stages,(failure_absorbed_iff reached fails stepped failed).mpr ?_⟩
  intro w listed job holds _
  have stage : some job.stage ∈ [some Stage.record,some Stage.fail] := by
    rw [← stages]
    exact List.mem_map.mpr ⟨w,listed,by rw [holds]; rfl⟩
  simp only [List.mem_cons,Option.some.injEq,List.not_mem_nil,or_false] at stage
  rcases stage with record | fail
  · rw [record]; rfl
  · rw [fail]; rfl

/-- The first worker is past the check with a `Start` and sets the failed actor to
    `Running`. -/
theorem failed_actor_runs_again :
    ¬ ∀ (config : SchedulerConfig) (n : Nat) (s s' : System) (label : Label) (a : ActorId),
      Reachable System.step (.init config n) s → failing s label = some a → s.step label = some s' →
      s'.shared.registry.get_state a = some .Failed → Absorbed a s' := by
  intro always
  have seen : (run System.step (.init { executor := true } 1) (concurrently .Start)).bind (fun s =>
      (s.step (.worker 1 .panics 0)).bind (fun s' => (s'.step (.worker 0 .panics 0)).map (fun s'' =>
        (failing s (.worker 1 .panics 0),s'.shared.registry.get_state ⟨1⟩,s''.shared.registry.get_state ⟨1⟩)))) =
      some (some ⟨1⟩,some .Failed,some .Running) := by decide +kernel
  obtain ⟨s,runs,later⟩ := Option.bind_eq_some_iff.mp seen
  obtain ⟨s',stepped,last⟩ := Option.bind_eq_some_iff.mp later
  obtain ⟨s'',writes,same⟩ := Option.map_eq_some_iff.mp last
  simp only [Prod.mk.injEq] at same
  obtain ⟨fails,failed,running⟩ := same
  have absorbed := always _ _ s s' _ ⟨1⟩ (reachable_run .start runs) fails stepped failed
  have stays := absorbed s'' (.next .start rfl writes)
  rw [running] at stays
  cases stays

end ActorKit.Failures
