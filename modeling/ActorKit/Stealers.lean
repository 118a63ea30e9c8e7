import ActorKit.Moves

/-!
# Whom a worker steals from

Every `stealer_refresh_interval` rounds a worker compares the version of the
stealer registry with the one it noted last and, when they differ, reads the
registry. Workers are added between the two, and again when the scheduler is
started once more. A worker may miss the newest queues for a while, but it never
takes a list for current that misses one, and it never steals from itself.
-/

namespace ActorKit.Stealers
open ActorKit.queue ActorKit.scheduler ActorKit.Moves ActorKit.Transition

/-- The queues that `get_stealers` returns. -/
def others (worker_id : Nat) (stealers : List (Nat × Nat)) : List Nat :=
  (stealers.filter (fun s => s.1 ≠ worker_id)).map (·.2)

/-- The queues a worker has still to look into in this round. -/
def aims : WorkerPc → List Nat
  | .steal victims => victims
  | .steal_batch victim victims _ | .push_local _ victim victims _ => victim :: victims
  | _ => []

/-- What a worker knows of the registry: the list of some moment that is not older
    than the version it noted. -/
structure Informed (stealers : List (Nat × Nat)) (w : Worker) : Prop where
  own : stealers[w.deque]? = some (w.worker_id,w.deque)
  moment : ∃ k, w.last_version ≤ k ∧ k ≤ stealers.length ∧ w.stealers = others w.worker_id (stealers.take k)
  read : ∀ current, w.pc = .refresh current → current ≤ stealers.length
  aimed : ∀ victim ∈ aims w.pc, victim ∈ w.stealers

/-- What the registry and the workers keep. -/
structure Known (s : System) : Prop where
  size : s.shared.stealers.length = s.shared.deques.length
  places : ∀ (i : Nat) (entry : Nat × Nat), s.shared.stealers[i]? = some entry → entry.2 = i
  informed : ∀ w ∈ s.workers, Informed s.shared.stealers w

/-! ## One call of a worker -/

/-- A worker that goes on with what it knew. -/
structure Carries (w w' : Worker) : Prop where
  worker_id : w'.worker_id = w.worker_id
  deque : w'.deque = w.deque
  stealers : w'.stealers = w.stealers
  last_version : w'.last_version = w.last_version

theorem Informed.carries {stealers : List (Nat × Nat)} {w w' : Worker} (informed : Informed stealers w) (same : Carries w w')
    (read : ∀ current, w'.pc = .refresh current → current ≤ stealers.length) (aimed : ∀ victim ∈ aims w'.pc, victim ∈ w.stealers) :
    Informed stealers w' := by
  refine ⟨?_,?_,read,?_⟩
  · rw [same.deque,same.worker_id]
    exact informed.own
  · rw [same.last_version,same.stealers,same.worker_id]
    exact informed.moment
  · rw [same.stealers]
    exact aimed

theorem rotated_carries (w : Worker) (pc : WorkerPc) : Carries w { w.rotated with pc } := by
  unfold Worker.rotated
  split <;> exact ⟨rfl,rfl,rfl,rfl⟩

theorem next_victim_aims {max : Nat} {victims : List Nat} {stolen : Nat} :
    ∀ victim ∈ aims (.next_victim max victims stolen), victim ∈ victims := by
  cases victims with
  | nil => simp [WorkerPc.next_victim,aims]
  | cons first victims =>
    simp only [WorkerPc.next_victim]
    split
    · simp [aims]
    · simp [aims]

theorem next_victim_reads {max : Nat} {victims : List Nat} {stolen current : Nat} :
    WorkerPc.next_victim max victims stolen ≠ .refresh current := by
  cases victims with
  | nil => simp [WorkerPc.next_victim]
  | cons first victims =>
    simp only [WorkerPc.next_victim]
    split <;> simp

theorem victims_stealers {w : Worker} {victim : Nat} (aimed : victim ∈ w.victims) : victim ∈ w.stealers := by
  obtain ⟨idx,-,found⟩ := List.mem_filterMap.mp aimed
  exact List.mem_of_getElem? found

theorem worker_informed {config : SchedulerConfig} {g g' : Shared} {w w' : Worker} {execution : Execution} {moved : Nat}
    (informed : Informed g.stealers w) (stepped : w.step config g execution moved = some (g',w')) :
    g'.stealers = g.stealers ∧ g'.deques.length = g.deques.length ∧ Informed g.stealers w' := by
  have aimed := informed.aimed
  obtain ⟨worker_id,deque,iteration,last_version,stealers,index,pc⟩ := w
  cases pc with
  | exited => cases stepped
  | head =>
    simp only [Worker.step] at stepped
    split at stepped
    · cases stepped
      exact ⟨rfl,rfl,informed.carries ⟨rfl,rfl,rfl,rfl⟩ (by simp) (by simp [aims])⟩
    · split at stepped <;> cases stepped <;>
        exact ⟨rfl,rfl,informed.carries ⟨rfl,rfl,rfl,rfl⟩ (by simp) (by simp [aims])⟩
  | version =>
    simp only [Worker.step] at stepped
    split at stepped <;> cases stepped
    · exact ⟨rfl,rfl,informed.carries ⟨rfl,rfl,rfl,rfl⟩ (by simp) (by simp [aims])⟩
    · exact ⟨rfl,rfl,informed.carries ⟨rfl,rfl,rfl,rfl⟩ (by simp) (by simp [aims])⟩
  | refresh current =>
    cases stepped
    refine ⟨rfl,rfl,informed.own,⟨g.stealers.length,informed.read current rfl,Nat.le_refl _,?_⟩,by simp,by simp [aims]⟩
    rw [List.take_length]
    rfl
  | pop lane =>
    simp only [Worker.step] at stepped
    split at stepped <;> cases stepped
    · exact ⟨rfl,rfl,informed.carries ⟨rfl,rfl,rfl,rfl⟩ (by simp) (by simp [aims])⟩
    · cases lane with
      | global =>
        refine ⟨rfl,rfl,informed.carries (rotated_carries _ _) (by simp [Worker.after_lane]) ?_⟩
        intro victim aimed
        exact victims_stealers aimed
      | _ => exact ⟨rfl,rfl,informed.carries ⟨rfl,rfl,rfl,rfl⟩ (by simp [Worker.after_lane]) (by simp [aims,Worker.after_lane])⟩
  | pop_local =>
    simp only [Worker.step] at stepped
    split at stepped <;> cases stepped
    · exact ⟨rfl,by simp [Shared.log_taken],informed.carries ⟨rfl,rfl,rfl,rfl⟩ (by simp) (by simp [aims])⟩
    · exact ⟨rfl,rfl,informed.carries ⟨rfl,rfl,rfl,rfl⟩ (by simp) (by simp [aims])⟩
  | steal victims =>
    simp only [Worker.step] at stepped
    split at stepped
    · cases stepped
      refine ⟨rfl,rfl,informed.carries (rotated_carries _ _) (fun _ reads => absurd reads next_victim_reads) ?_⟩
      intro victim aimed
      exact victims_stealers (next_victim_aims victim aimed)
    · next first victims =>
      have rest : ∀ victim ∈ victims, victim ∈ stealers := fun victim member => aimed victim (List.mem_cons_of_mem _ member)
      split at stepped <;> cases stepped
      · exact ⟨rfl,by simp [Shared.log_taken],informed.carries ⟨rfl,rfl,rfl,rfl⟩ (by simp) (by simp [aims])⟩
      · exact ⟨rfl,rfl,informed.carries ⟨rfl,rfl,rfl,rfl⟩ (by simp) rest⟩
  | steal_batch first victims stolen =>
    have rest : ∀ victim ∈ victims, victim ∈ stealers := fun victim member => aimed victim (List.mem_cons_of_mem _ member)
    simp only [Worker.step] at stepped
    split at stepped <;> cases stepped
    · exact ⟨rfl,by simp,informed.carries ⟨rfl,rfl,rfl,rfl⟩ (by simp) aimed⟩
    · exact ⟨rfl,rfl,informed.carries ⟨rfl,rfl,rfl,rfl⟩ (fun _ reads => absurd reads next_victim_reads)
        (fun victim member => rest victim (next_victim_aims victim member))⟩
  | push_local task first victims stolen =>
    cases stepped
    exact ⟨rfl,by simp,informed.carries ⟨rfl,rfl,rfl,rfl⟩ (by simp) aimed⟩
  | process job =>
    rcases steps : job.step config g execution with ⟨after,next⟩
    have effect := step_effect steps
    have kept : after.stealers = g.stealers := by cases effect <;> rfl
    have deques := (effect_frame effect).deques
    simp only [Worker.step,steps] at stepped
    split at stepped <;> cases stepped <;>
      exact ⟨kept,by rw [deques],informed.carries ⟨rfl,rfl,rfl,rfl⟩ (by simp) (by simp [aims])⟩

/-! ## Runs -/

/-- One more registration. -/
theorem Informed.added {stealers : List (Nat × Nat)} {w : Worker} (informed : Informed stealers w) (entry : Nat × Nat) :
    Informed (stealers ++ [entry]) w := by
  obtain ⟨k,later,within,same⟩ := informed.moment
  have longer : (stealers ++ [entry]).length = stealers.length + 1 := by simp
  refine ⟨?_,⟨k,later,by omega,?_⟩,fun current reads => by have := informed.read current reads; omega,informed.aimed⟩
  · rw [List.getElem?_append_left (List.getElem?_eq_some_iff.mp informed.own).1]
    exact informed.own
  · rw [List.take_append_of_le_length within]
    exact same

/-- A client does not touch the local queues. -/
theorem client_quiet {config : SchedulerConfig} {g g' : Shared} {i : Nat} {call : Call} {c c' : Client}
    (moves : ClientMove config g i call c g' c') : g'.stealers = g.stealers ∧ g'.deques = g.deques := by
  cases moves with
  | enter =>
    obtain ⟨next,same⟩ := enter_frame g call
    rw [same]
    exact ⟨rfl,rfl⟩
  | _ => exact ⟨rfl,rfl⟩

theorem known_step {s s' : System} {label : Label} (known : Known s) (stepped : s.step label = some s') : Known s' := by
  -- Whoever leaves the registry alone.
  have quiet : ∀ {g' : Shared} {clients : List Client}, g'.stealers = s.shared.stealers → g'.deques = s.shared.deques →
      Known { s with shared := g', clients } := by
    intro g' clients stealers deques
    refine ⟨?_,?_,?_⟩
    · rw [stealers,deques]
      exact known.size
    · rw [stealers]
      exact known.places
    · rw [stealers]
      exact known.informed
  cases label with
  | worker i execution moved =>
    obtain ⟨w,found,rest⟩ := Option.bind_eq_some_iff.mp stepped
    obtain ⟨⟨g',w'⟩,steps,same⟩ := Option.bind_eq_some_iff.mp rest
    cases same
    obtain ⟨stealers,deques,informed⟩ := worker_informed (known.informed w (List.mem_of_getElem? found)) steps
    refine ⟨?_,?_,?_⟩
    · rw [stealers,deques]
      exact known.size
    · rw [stealers]
      exact known.places
    · rw [stealers]
      intro v listed
      rcases List.mem_or_eq_of_mem_set listed with old | rfl
      · exact known.informed v old
      · exact informed
  | client i call admitted =>
    obtain ⟨c,found,rest⟩ := Option.bind_eq_some_iff.mp stepped
    obtain ⟨⟨g',c'⟩,steps,same⟩ := Option.bind_eq_some_iff.mp rest
    cases same
    obtain ⟨stealers,deques⟩ := client_quiet (client_move steps)
    exact quiet stealers deques
  | drop_send i =>
    simp only [System.step] at stepped
    split at stepped <;> cases stepped <;> exact quiet rfl rfl
  | spawn id name =>
    simp only [System.step] at stepped
    split at stepped <;> cases stepped
    exact quiet rfl rfl
  | receive id =>
    cases stepped
    exact quiet rfl rfl
  | set_running running =>
    cases stepped
    exact quiet rfl rfl
  | start_worker worker_id =>
    cases stepped
    have last : (s.shared.stealers ++ [(worker_id,s.shared.deques.length)])[s.shared.deques.length]? =
        some (worker_id,s.shared.deques.length) := by
      rw [← known.size]
      simp
    refine ⟨by simp [known.size],?_,?_⟩
    · intro i entry found
      rcases Nat.lt_or_ge i s.shared.stealers.length with old | new
      · exact known.places i entry (by rw [← found,List.getElem?_append_left old])
      · obtain ⟨bound,-⟩ := List.getElem?_eq_some_iff.mp found
        have size := known.size
        rw [List.length_append,List.length_singleton] at bound
        obtain rfl : i = s.shared.deques.length := by omega
        rw [last] at found
        cases found
        rfl
    · intro v listed
      rcases List.mem_append.mp listed with old | new
      · exact (known.informed v old).added _
      · rw [List.mem_singleton.mp new]
        exact ⟨last,⟨0,Nat.le_refl _,Nat.zero_le _,rfl⟩,by simp,by simp [aims]⟩

theorem known_init (config : SchedulerConfig) (n : Nat) : Known (.init config n) := by
  refine ⟨rfl,?_,?_⟩
  · intro i entry found
    simp [System.init] at found
  · intro w member
    cases member

theorem mem_others {worker_id : Nat} {stealers : List (Nat × Nat)} {i : Nat} :
    i ∈ others worker_id stealers ↔ ∃ other, (other,i) ∈ stealers ∧ other ≠ worker_id := by
  simp [others]

/-- In every reachable state, with workers added at any time: what a worker steals
    from are the queues of the others at a moment not older than the version it
    noted. Its own queue is never among them, and when it noted the latest version
    no other worker's queue is missing. -/
theorem stealers_current {config : SchedulerConfig} {n : Nat} {s : System}
    (reached : Reachable System.step (.init config n) s) {w : Worker} (member : w ∈ s.workers) :
    (∃ k, w.last_version ≤ k ∧ k ≤ s.shared.stealers.length ∧
      w.stealers = others w.worker_id (s.shared.stealers.take k)) ∧
    w.deque ∉ w.stealers ∧ (∀ victim ∈ aims w.pc, victim ≠ w.deque ∧ victim < s.shared.deques.length) ∧
    (w.last_version = s.shared.stealers.length →
      ∀ v ∈ s.workers, v.worker_id ≠ w.worker_id → v.deque ∈ w.stealers) := by
  have known : Known s := reached.invariant (known_init config n) (fun _ _ _ inv _ stepped => known_step inv stepped)
  have informed := known.informed w member
  obtain ⟨k,later,within,same⟩ := informed.moment
  -- The queue at a place belongs to the worker registered there.
  have placed : ∀ other i, (other,i) ∈ s.shared.stealers → s.shared.stealers[i]? = some (other,i) := by
    intro other i listed
    obtain ⟨j,found⟩ := List.getElem?_of_mem listed
    have place := known.places j _ found
    rw [show j = i from place.symm] at found
    exact found
  have foreign : w.deque ∉ w.stealers := by
    intro listed
    rw [same,mem_others] at listed
    obtain ⟨other,entry,apart⟩ := listed
    have there := placed other w.deque (List.mem_of_mem_take entry)
    rw [informed.own] at there
    cases there
    exact apart rfl
  refine ⟨⟨k,later,within,same⟩,foreign,?_,?_⟩
  · intro victim aimed
    have listed := informed.aimed victim aimed
    refine ⟨fun own => foreign (own ▸ listed),?_⟩
    rw [same,mem_others] at listed
    obtain ⟨other,entry,-⟩ := listed
    rw [← known.size]
    exact (List.getElem?_eq_some_iff.mp (placed other victim (List.mem_of_mem_take entry))).1
  · intro current v listed apart
    obtain rfl : k = s.shared.stealers.length := by omega
    rw [same,List.take_length,mem_others]
    exact ⟨v.worker_id,List.mem_of_getElem? (known.informed v listed).own,apart⟩

/-- Two workers, of which the first has refreshed its list after the second was
    added. -/
def refreshed : List Label :=
  [.start_worker 0,.set_running true,.start_worker 1] ++ List.replicate 3 (.worker 0 (.returns .Success) 0)

theorem stealers_current_two : ∃ s w, Reachable System.step (.init { stealer_refresh_interval := 1 } 0) s ∧ w ∈ s.workers ∧
    w.last_version = s.shared.stealers.length ∧ w.stealers = [1] ∧ w.deque ∉ w.stealers := by
  have seen : (run System.step (.init { stealer_refresh_interval := 1 } 0) refreshed).map (fun s =>
      (s.workers.head?.map (fun w => (w.last_version,w.stealers)),s.shared.stealers.length)) = some (some (2,[1]),2) := by
    decide +kernel
  obtain ⟨s,runs,same⟩ := Option.map_eq_some_iff.mp seen
  simp only [Prod.mk.injEq,Option.map_eq_some_iff] at same
  obtain ⟨⟨w,first,version,list⟩,length⟩ := same
  have reached : Reachable System.step (.init { stealer_refresh_interval := 1 } 0) s := reachable_run .start runs
  have member := List.mem_of_mem_head? first
  exact ⟨s,w,reached,member,by rw [version,length],list,(stealers_current reached member).2.1⟩

end ActorKit.Stealers
