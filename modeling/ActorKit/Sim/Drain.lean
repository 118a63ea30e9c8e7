import ActorKit.Sim.Fairness

/-!
# The simulated workload drains

While the budget lasts every round injects a message. From then on a round takes
energy out of the backlog, or it waits for a delayed delivery: where nothing is
ready, the mailboxes of the living are empty and whatever is parked fits in. So the
configuration alone tells how many rounds are enough.
-/

namespace ActorKit.Sim.Drain
open ActorKit.mailbox ActorKit.registry ActorKit.queue ActorKit.scheduler ActorKit.sim ActorKit.supervisor
open ActorKit.Program ActorKit.MailboxAccounting ActorKit.MailboxCalls
open ActorKit.Sim.Restarts ActorKit.Sim.Population ActorKit.Sim.Accounts ActorKit.Sim.Audits ActorKit.Sim.Energy
open ActorKit.Sim.Rounds
open ActorKit.Sim.Fairness (round_tick with_config_quiet)

/-- The budget is used up and nothing waits. -/
structure Done (b : Backlog) : Prop where
  injected : b.total ≤ b.next
  delayed : b.delayed = []
  blocked : b.blocked = []
  ready : b.ready.tasks = []

section
variable {c : SimConfig} {o : Outside} {n : Nat}

/-- Where no task is ready, the mailboxes of the living are empty. -/
theorem mailbox_empty {s : Sim} (nothing : s.ready.tasks = []) {ord : Nat} {led : ActorLedger}
    (alive : Alive c.mailbox s.registry (({} : Hand).held ++ s.ready.tasks) ord led) {mb : Mailbox}
    (present : s.registry.get_mailbox (idOf ord led) = some mb) : mb.len = 0 := by
  obtain ⟨mb',present',box',sound⟩ := alive_mailbox alive
  obtain ⟨mb'',box'',-,loaded,-⟩ := alive.mailbox
  rw [present] at present'
  cases present'
  rw [box'] at box''
  cases box''
  have size := sound.size
  rw [nothing] at loaded
  rw [Mailbox.len,size,loaded]
  rfl

/-- A small delivery fits where no task is ready. -/
theorem roomy_of_nothing {s : Sim} (inv : Inv c o n {} s) (distinct : Distinct s.ledger) (room : 3 ≤ c.mailbox.capacity)
    (nothing : s.ready.tasks = []) (ord : Nat) {msgs : List Message} (small : msgs.length ≤ 3) : Roomy s ord msgs := by
  intro id state mailbox current registered present
  obtain ⟨led,found,lives,rfl,alive⟩ := live_of_registered inv rfl distinct current registered
  have empty := mailbox_empty nothing alive present
  obtain ⟨mb,present',-,sound⟩ := alive_mailbox alive
  rw [present] at present'
  cases present'
  rw [Mailbox.remaining_capacity,empty,sound.sameConfig]
  omega

/-- Where no task is ready, every mailbox the audit looks at is empty. -/
theorem mailboxes_empty {s : Sim} (inv : Inv c o n {} s) (nothing : s.ready.tasks = []) :
    (s.ledger.zip s.actors).all (fun (led,id) =>
      !led.alive || ((s.registry.get_mailbox id).map (·.is_empty)).getD true) = true := by
  rw [List.all_eq_true]
  rintro ⟨led,id⟩ member
  obtain ⟨ord,at_⟩ := List.mem_iff_getElem?.mp member
  obtain ⟨found,current⟩ := List.getElem?_zip_eq_some.mp at_
  rw [inv.world.actors,found] at current
  obtain rfl : idOf ord led = id := Option.some.inj current
  by_cases lives : led.alive = true
  · have alive := inv.world.alive ord led found lives (by simp)
    obtain ⟨mb,present,-⟩ := alive_mailbox alive
    have empty := mailbox_empty nothing alive present
    simp [present,Mailbox.is_empty,empty]
  · simp [lives]

theorem quiescent_of_done {s : Sim} (inv : Inv c o n {} s) (tidy : Tidy (backlog s)) (done : Done (backlog s)) :
    s.is_quiescent = true := by
  have ready : s.ready.tasks = [] := done.ready
  have queues : s.ready.priority = [] ∧ s.ready.ready = [] := by simpa [ReadySet.tasks] using ready
  have counts : s.ready.total_queued_msgs = 0 := total_of_empty tidy.tallied ready
  have delayed : s.delayed = [] := done.delayed
  have blocked : s.blocked = [] := done.blocked
  have injected : s.mid_times.length ≤ s.next_mid := done.injected
  have mailboxes := mailboxes_empty inv ready
  simp [Sim.is_quiescent,injected,delayed,blocked,ReadySet.is_empty,queues,counts,mailboxes]

/-! ## One round -/

/-- A backlog that is no distance from the end is at the end. -/
theorem done_of_distance {b : Backlog} (near : b.distance = 0) : Done b := by
  unfold Backlog.distance at near
  split at near
  · next used =>
    have nothing : b.energy = 0 := by omega
    unfold Backlog.energy at nothing
    exact ⟨Nat.sub_eq_zero_iff_le.mp used,nil_of_tolls 2 (·.payload.mids) (by omega),nil_of_tolls 1 (·.mids) (by omega),
      nil_of_tolls 0 (·.mids) (by omega)⟩
  · next some_ => omega

/-- The phases while the budget lasts: what a message costs is less than what it
    leaves to inject. -/
theorem distance_injects {b b₂ b₅ : Backlog} (some_ : b.next < b.total) (injected : Injected { b with tick := b.tick + 1 } b₂)
    (more : b.next < b₂.next) (onward : Onward b₂ b₅) (spent : b₅.energy ≤ b₂.energy) (tidy : Tidy b₅) :
    b₅.distance < b.distance := by
  have costs : b₂.energy ≤ b.energy + 10 * (b₂.next - b.next) := injected.costs
  have total : b₅.total = b.total := onward.total.trans injected.total
  have reach : b₅.reach = b.reach := onward.reach.trans injected.reach
  have next := onward.next
  have within := tidy.within
  have wait : b₅.wait ≤ b₅.reach := wait_le.mpr tidy.soon
  have left : b.left = b.total - b.next := rfl
  have left' : b₅.left = b₅.total - b₅.next := rfl
  unfold Backlog.distance
  split <;> split <;> omega

/-- The phases after the budget is used up, with what holds where the backlog is
    after the deliveries. -/
theorem distance_works {b b₃ b₄ b₅ : Backlog} (used : b.total ≤ b.next)
    (delivered : Delivered { b with tick := b.tick + 1 } b₃) (retried : Retried b₃ b₄)
    (roomy : b₃.ready.tasks = [] → b₃.blocked ≠ [] → b₄.energy < b₃.energy) (worked : Worked b₄ b₅)
    (works : b₄.ready.tasks ≠ [] → b₅.energy < b₄.energy) : b₅.distance < b.distance ∨ Done b₅ := by
  have chain := (delivered.onward.trans retried.onward).trans worked.onward
  have left : b.left = 0 := Nat.sub_eq_zero_of_le used
  have left' : b₅.left = 0 := by
    unfold Backlog.left
    rw [chain.total,chain.next]
    exact left
  have first : b₃.energy ≤ b.energy := delivered.energy_le
  have second := retried.energy_le
  have third := worked.energy_le
  have suffix : b₅.delayed <:+ b.delayed := by
    rw [worked.delayed,retried.delayed]
    exact delivered.delayed
  have tick : b₅.tick = b.tick + 1 := chain.tick
  have waits : b₅.wait ≤ b.wait := wait_le.mpr (fun later member => by
    have soon := wait_le.mp (Nat.le_refl b.wait) later (suffix.subset member)
    omega)
  unfold Backlog.distance
  rw [if_pos left,if_pos left']
  by_cases less : b₅.energy < b.energy
  · exact .inl (by omega)
  -- No energy was spent: nothing moved.
  have level : b₅.energy = b.energy := by omega
  have still : b₃ = { b with tick := b.tick + 1 } := by
    rcases delivered.moved with same | lost
    · exact same
    · have lost : b₃.energy < b.energy := lost
      omega
  have ready : b₄.ready = b₃.ready := by
    rcases retried.moved with lost | ⟨-,same⟩
    · omega
    · exact same
  have idle : b₄.ready.tasks = [] := by
    by_contra some_
    have := works some_
    omega
  have rest : b₅ = b₄ := by
    rcases worked.moved with same | lost
    · exact same
    · omega
  have unblocked : b₃.blocked = [] := by
    by_contra some_
    have := roomy (ready ▸ idle) some_
    omega
  have blocked : b₄.blocked = [] := by
    have := retried.blocked
    rw [unblocked] at this
    exact List.length_eq_zero_iff.mp (Nat.le_zero.mp this)
  have delayed : b₄.delayed = b.delayed := by
    rw [retried.delayed,still]
  subst rest
  cases waiting : b.delayed with
  | nil => exact .inr ⟨Nat.sub_eq_zero_iff_le.mp left',delayed.trans waiting,blocked,idle⟩
  | cons later others =>
    -- The first of them is not due, so the last is nearer by a tick.
    have early := delivered.due later (by rw [still]; show later ∈ b.delayed.head?; rw [waiting]; rfl)
    rw [still] at early
    have early : b.tick + 1 < later.due := early
    have last := wait_le.mp (Nat.le_refl b.wait)
    have head := last later (by rw [waiting]; exact List.mem_cons_self)
    have nearer : b₅.wait ≤ b.wait - 1 := wait_le.mpr (fun later' member => by
      have soon := last later' (suffix.subset member)
      omega)
    exact .inl (by omega)

/-! ## One round -/

section
variable (fits : c.mailbox.capacity < 2 ^ 64) (room : 3 ≤ c.mailbox.capacity) (positive : 0 < c.actors.toNat)
  (works : 0 < c.processing_per_tick.toNat) (retries : 0 < c.blocked_retries_per_tick.toNat) (close : Close o)
include fits room positive works retries close

/-- A round brings the end nearer, or is the last. -/
theorem round_nearer {s s' : Sim} (inv : Inv c o c.actors.toNat {} s) (tidy : Tidy (backlog s))
    (ended : sim.round s = .ok () s') (assumed : (setting c).Assumed s') :
    Tidy (backlog s') ∧ ((backlog s').distance < (backlog s).distance ∨ Done (backlog s')) := by
  obtain ⟨s₂,s₃,s₄,injects,delivers,retry,process⟩ := round_phases ended
  have small : c.actors.toNat < 2 ^ 64 := c.actors.toNat_lt
  -- The invariant after the deliveries; the states before the end are assumed with it.
  have assumed₄ := (setting c).inherit ((process_ready_meets (o := o) fits close small _).ended process).1 assumed
  have assumed₃ := (setting c).inherit ((retry_blocked_meets (o := o) (n := c.actors.toNat) fits).ended retry).1 assumed₄
  have assumed₂ := (setting c).inherit ((deliver_due_meets (o := o) (n := c.actors.toNat) fits).ended delivers).1 assumed₃
  have inv₁ : Inv c o c.actors.toNat {} { s with tick := s.tick + 1 } := { inv with }
  have inv₂ := ((inject_workload_meets fits positive).ended injects).2 inv₁ assumed₂
  have inv₃ := ((deliver_due_meets fits).ended delivers).2 inv₂ assumed₃
  -- What the phases do to the backlog.
  obtain ⟨injected,unused,some_⟩ := ((inject_workload_moves _).ended injects).2 rfl trivial
  have delivered := ((deliver_due_moves _).ended delivers).2 rfl trivial
  have tidy₁ : Tidy (backlog { s with tick := s.tick + 1 }) :=
    { tidy with soon := fun later member => (tidy.soon later member).trans (Nat.add_le_add_right (Nat.le_succ s.tick) _) }
  have tidy₂ := injected.tidy tidy₁
  have tidy₃ := delivered.tidy tidy₂
  obtain ⟨retried,strict⟩ := ((retry_blocked_moves (s₃.ready.tasks = [] ∧ s₃.blocked ≠ []) (backlog s₃)).ended retry).2
    ⟨rfl,fun holds => ⟨by rw [inv₃.sameConfig]; exact retries,holds.2,fun p head =>
      roomy_of_nothing inv₃ assumed₃.1 room holds.1 p.ord (tidy₃.blocked p (List.mem_of_mem_head? head))⟩⟩ trivial
  obtain ⟨worked,busy⟩ := ((process_ready_moves _ _).ended process).2 rfl trivial
  have tidy' := worked.tidy (retried.tidy tidy₃)
  refine ⟨tidy',?_⟩
  by_cases used : (backlog s).total ≤ (backlog s).next
  · have same : backlog s₂ = { backlog s with tick := (backlog s).tick + 1 } := unused used
    rw [same] at delivered
    refine distance_works used delivered retried (fun nothing parked => strict ⟨nothing,parked⟩) worked (busy ?_)
    rw [inv.sameConfig]
    exact works
  · have left := Nat.lt_of_not_le used
    have spent : (backlog s').energy ≤ (backlog s₂).energy :=
      (worked.energy_le.trans retried.energy_le).trans delivered.energy_le
    exact .inl (distance_injects left injected (some_ left)
      ((delivered.onward.trans retried.onward).trans worked.onward) spent tidy')

/-! ## Whole runs -/

/-- As many rounds as the backlog is away lead to a quiescent state, if the ids are
    distinct at their end and the clock has the room for them. -/
theorem rounds_drain (modest : ¬Excessive c) (steps executed : Nat) {s : Sim} (inv : Inv c o c.actors.toNat {} s)
    (tidy : Tidy (backlog s)) (enough : (backlog s).distance ≤ steps) (late : s.tick + steps + longest c < 2 ^ 64)
    (distinct : Distinct (final (rounds steps executed) s).ledger) :
    ∃ e s', rounds steps executed s = .ok e s' ∧ s'.is_quiescent = true ∧ Inv c o c.actors.toNat {} s' := by
  induction steps generalizing s executed with
  | zero =>
    have quiescent := quiescent_of_done inv tidy (done_of_distance (Nat.le_zero.mp enough))
    exact ⟨executed,s,rfl,quiescent,inv⟩
  | succ steps ih =>
    cases quiescent : s.is_quiescent with
    | true => exact ⟨executed,s,rounds_settled quiescent _ _,quiescent,inv⟩
    | false =>
      have tick := round_tick s
      cases result : sim.round s with
      | error e s₁ =>
        have fails : rounds (steps + 1) executed s = .error e s₁ := by
          rw [rounds_busy quiescent,bind_run,result]
        have accepted := (round_meets fits positive close).holds s inv
        rw [final_error fails] at distinct
        rw [final_error result] at tick accepted
        rw [result] at accepted
        exact absurd (accepted ⟨distinct,by omega⟩).2 modest
      | ok _ s₁ =>
        have step := rounds_step quiescent result
        have goes : final (rounds (steps + 1) executed) s = final (rounds steps (executed + 1)) s₁ := by
          unfold final
          rw [step]
        rw [goes] at distinct
        rw [final_ok result] at tick
        -- What is assumed of the last state holds of this one.
        have grows := ((rounds_meets fits positive close steps (executed + 1)).grows s₁).1
        have once : (setting c).Assumed s₁ := ⟨distinct.anti grows,by omega⟩
        have inv₁ := ((round_meets fits positive close).ended result).2 inv once
        obtain ⟨tidy₁,nearer⟩ := round_nearer fits room positive works retries close inv tidy result once
        rw [step]
        rcases nearer with nearer | done
        · exact ih (executed + 1) inv₁ tidy₁ (by omega) (by omega) distinct
        · have quiet := quiescent_of_done inv₁ tidy₁ done
          exact ⟨executed + 1,s₁,rounds_settled quiet _ _,quiet,inv₁⟩

end
end

/-! ## The simulation -/

/-- The simulation ends in a quiescent world after at most `k` rounds. -/
def Quiesces (seed : UInt64) (config : SimConfig) (draws : Nat → UInt64) (outside : Outside) (k : Nat) : Prop :=
  ∃ s, simulate seed config draws outside [k] = .ok () s ∧ s.is_quiescent = true

/-- The rounds of a simulation, without the audit at its end. -/
def played (seed : UInt64) (config : SimConfig) (draws : Nat → UInt64) (outside : Outside) (k : Nat) :
    EStateM.Result Failure Sim Nat :=
  (with_config >>= fun _ => rounds k 0) (.start seed config draws outside)

section
variable {seed : UInt64} {config : SimConfig} {draws : Nat → UInt64} {outside : Outside}

theorem played_built {s : Sim} (built : with_config (.start seed config draws outside) = .ok () s) (k : Nat) :
    played seed config draws outside k = rounds k 0 s := by
  unfold played
  rw [bind_run,built]

theorem reached_simulate (k : Nat) :
    reached (simulate seed config draws outside [k]) = reached (played seed config draws outside k) := by
  unfold simulate EStateM.run
  cases built : with_config (.start seed config draws outside) with
  | error failure s =>
    unfold played
    rw [bind_run,bind_run,built]
    rfl
  | ok _ s =>
    rw [played_built built,reached_run,reached_run,final_bind built,← run_final]
    exact (final_last (p := run k >>= fun _ => pure ()) s).trans (final_last s)

/-- A simulation that ends is one whose rounds end. -/
theorem played_of_simulate {k : Nat} {s : Sim} (ended : simulate seed config draws outside [k] = .ok () s) :
    ∃ e, played seed config draws outside k = .ok e s := by
  have same : s = reached (played seed config draws outside k) := by
    rw [← reached_simulate,ended]
    rfl
  obtain ⟨_,s₁,built,runs⟩ := bind_ends ended
  obtain ⟨_,_,once,-⟩ := bind_ends runs
  obtain ⟨_,_,ran,-⟩ := bind_ends once
  obtain ⟨e,s₂,rounds,-⟩ := bind_ends ran
  rw [played_built built,rounds] at same ⊢
  have here : s = s₂ := same
  exact ⟨e,by rw [here]⟩

/-- A world whose rounds came to rest ends the simulation. -/
theorem quiesces_of_rounds {s s' : Sim} (built : with_config (.start seed config draws outside) = .ok () s) {k e : Nat}
    (ended : rounds k 0 s = .ok e s') (quiescent : s'.is_quiescent = true) (audited : s'.audit_identities = .ok ()) :
    Quiesces seed config draws outside k := by
  refine ⟨s',?_,quiescent⟩
  have ran : ∃ outcome, run k s = .ok outcome s' := by
    refine ⟨⟨s'.seed,s'.is_quiescent,e,s'.trace_hash,s'.trace.length,s'.stats⟩,?_⟩
    unfold run
    rw [bind_run,ended]
    refine (bind_run _ _ _).trans ?_
    show (if s'.is_quiescent then _ else _ : SimM SimOutcome) s' = _
    rw [if_pos quiescent,audited]
    rfl
  obtain ⟨outcome,ran⟩ := ran
  unfold simulate EStateM.run
  rw [bind_run,built]
  show ((run k >>= fun _ => pure ()) >>= fun _ => pure ()) s = _
  rw [bind_run,bind_run,ran]
  rfl

end

/-- The rounds that are enough for a configuration: two for every start message,
    eleven for every message of the budget, and the longest delay. -/
def drain_rounds (config : SimConfig) : Nat := 2 * config.actors.toNat + 11 * config.messages.toNat + longest config

/-- Whatever the draws, the policy and the faults: if every mailbox holds a batch
    and every round works and retries, so many rounds lead to a quiescent world.
    Assumed is that the supervisor's clock spans less than its window, that the
    configuration is not excessive, that no delay leaves the tick counter within these
    rounds and that the incarnations they bring have distinct ids. -/
theorem workload_drains (seed : UInt64) (config : SimConfig) (draws : Nat → UInt64) (outside : Outside)
    (populated : 1 ≤ config.actors) (fits : config.mailbox.capacity < 2 ^ 64) (room : 3 ≤ config.mailbox.capacity)
    (works : 1 ≤ config.processing_per_tick) (retries : 1 ≤ config.blocked_retries_per_tick) (close : Close outside)
    (modest : ¬Excessive config) (late : drain_rounds config + longest config < 2 ^ 64)
    (distinct : Distinct (reached (simulate seed config draws outside [drain_rounds config])).ledger) :
    ∃ k, k ≤ drain_rounds config ∧ Quiesces seed config draws outside k := by
  have positive : 0 < config.actors.toNat := UInt64.le_iff_toNat_le.mp populated
  have start := inv_start seed config draws outside
  have young : (final with_config (.start seed config draws outside)).tick = 0 := (with_config_quiet _).tick
  rw [reached_simulate] at distinct
  cases built : with_config (.start seed config draws outside) with
  | error failure s =>
    have fails : played seed config draws outside (drain_rounds config) = .error failure s := by
      unfold played
      rw [bind_run,built]
    have accepted := (with_config_meets (o := outside) fits).holds _ start
    rw [fails] at distinct
    rw [final_error built] at young accepted
    rw [built] at accepted
    exact absurd (accepted ⟨distinct,by omega⟩).2 modest
  | ok _ s =>
    rw [played_built built,reached_run] at distinct
    rw [final_ok built] at young
    have grows := ((rounds_meets fits positive close (drain_rounds config) 0).grows s).1
    have inv := ((with_config_meets fits).ended built).2 start ⟨distinct.anti grows,by omega⟩
    have spawned := ((with_config_moves _).ended built).2 rfl trivial
    have tidy : Tidy (backlog s) := spawned.tidy ⟨nofun,nofun,fun _ => rfl,nofun,Nat.zero_le _⟩
    have enough : (backlog s).distance ≤ drain_rounds config := by
      have costs : (backlog s).energy ≤ 0 + 2 * config.actors.toNat := spawned.costs
      have reach : (backlog s).reach = longest config := spawned.onward.reach
      have wait : (backlog s).wait ≤ 0 := wait_le.mpr (by rw [spawned.delayed]; exact nofun)
      have left : (backlog s).left = config.messages.toNat := by
        unfold Backlog.left
        rw [spawned.onward.total,spawned.onward.next]
        exact List.length_replicate
      unfold Backlog.distance drain_rounds
      split <;> omega
    obtain ⟨e,s',ended,quiescent,inv'⟩ := rounds_drain fits room positive (UInt64.le_iff_toNat_le.mp works)
      (UInt64.le_iff_toNat_le.mp retries) close modest (drain_rounds config) 0 inv tidy enough (by omega) distinct
    exact ⟨drain_rounds config,Nat.le_refl _,quiesces_of_rounds built ended quiescent (audit_identities_passes inv' quiescent)⟩

/-! ## Simulations that settle and simulations that panic -/

/-- Whether rounds ended in a quiescent world. -/
def quiet : EStateM.Result Failure Sim Nat → Bool
  | .ok _ s => s.is_quiescent
  | .error _ _ => false

/-- Whether rounds panicked. -/
def panicked : EStateM.Result Failure Sim Nat → Bool
  | .ok _ _ => false
  | .error _ _ => true

section
variable {seed : UInt64} {config : SimConfig} {draws : Nat → UInt64} {outside : Outside}

theorem played_over {k : Nat} (finished : quiet (played seed config draws outside k) = true ∨
      panicked (played seed config draws outside k) = true) (more : Nat) :
    played seed config draws outside (k + more) = played seed config draws outside k := by
  cases built : with_config (.start seed config draws outside) with
  | error failure s =>
    unfold played
    rw [bind_run,bind_run,built]
  | ok _ s =>
    rw [played_built built] at finished
    rw [played_built built,played_built built]
    refine rounds_add ?_ more
    cases result : rounds k 0 s with
    | ok e s' =>
      rw [result] at finished
      exact finished.resolve_right nofun
    | error e s' => trivial

theorem never_quiesces {j : Nat} (early : ∀ k < j, quiet (played seed config draws outside k) = false)
    (panics : panicked (played seed config draws outside j) = true) (k : Nat) :
    ¬Quiesces seed config draws outside k := by
  rintro ⟨s,ended,quiescent⟩
  obtain ⟨e,plays⟩ := played_of_simulate ended
  by_cases before : k < j
  · have busy := early k before
    rw [plays] at busy
    exact absurd (quiescent.symm.trans busy) (by decide)
  · have later := played_over (.inr panics) (k - j)
    rw [Nat.add_sub_cancel' (Nat.le_of_not_lt before)] at later
    rw [← later,plays] at panics
    cases panics

end

/-- The crashing simulation is quiescent after one round. -/
theorem workload_drains_crashing : ∃ k, k ≤ drain_rounds crashing ∧ Quiesces 0 crashing (fun _ => 0) still k := by
  have close : Close still := fun _ _ => ⟨show 0 < window by decide,show 0 < window by decide⟩
  have modest : ¬Excessive crashing := by
    unfold Excessive
    decide +kernel
  refine workload_drains 0 crashing (fun _ => 0) still (by decide) (by decide) (by decide) (by decide) (by decide) close
    modest (by decide +kernel) ?_
  have rounds : drain_rounds crashing = 1 + (drain_rounds crashing - 1) := by decide +kernel
  have once : (reached (played 0 crashing (fun _ => 0) still 1)).ledger.length ≤ 2 ^ 64 ∧
      ∀ led ∈ (reached (played 0 crashing (fun _ => 0) still 1)).ledger, led.incarnation < 2 ^ 21 := by decide +kernel
  rw [reached_simulate,rounds,played_over (.inl (by decide +kernel))]
  exact distinct_small once.1 once.2

/-- A rate that no counter holds. -/
def flooded : SimConfig := { actors := 1, messages := 1, injection_rate := .infinite false }

/-- Two messages, a crash at every task and one restart. -/
def relapsing : SimConfig :=
  { actors := 1, messages := 2, injection_rate := .finite 0, max_restarts := 1, faults := { crash_prob := .finite 1 } }

/-- Two hours pass after the first exit. -/
def interrupted : Outside :=
  ⟨fun k => if k = 0 then ⟨0,0⟩ else ⟨2 * window,2 * window⟩,fun k => ⟨.ofNat 128 k⟩⟩

/-- Both configurations are as they should be and delay nothing. An infinite rate
    overflows in the first round; with two hours between its exits an actor is
    restarted once more than the audit allows. Ids repeat from the incarnation on
    that reaches the bits of their base. -/
theorem workload_stuck :
    (∀ config ∈ [flooded,relapsing], 1 ≤ config.actors ∧ 3 ≤ config.mailbox.capacity ∧ 1 ≤ config.processing_per_tick ∧
      1 ≤ config.blocked_retries_per_tick ∧ config.faults.delay_prob = .zero) ∧
    (∀ k, ¬Quiesces 0 flooded (fun _ => 0) still k) ∧
    (∀ k, ¬Quiesces 0 relapsing (fun _ => 18446744073709551615) interrupted k) ∧
    sim_actor_id 0 (2 ^ 21) = sim_actor_id 0 0 := by
  refine ⟨by decide +kernel,?_,?_,by decide +kernel⟩
  · exact never_quiesces (j := 1) (by decide +kernel) (by decide +kernel)
  · exact never_quiesces (j := 2) (by decide +kernel) (by decide +kernel)

end ActorKit.Sim.Drain
