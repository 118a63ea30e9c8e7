import ActorKit.Slots

/-!
# Senders that wait for a permit

A send that waits for a permit holds the slots of the messages it has already
pushed, and its task is enqueued only after the last push. Senders that together
fill the mailbox this way wait for each other. They cannot while the batches in
progress leave at least one slot.
-/

namespace ActorKit.Backpressure
open ActorKit.mailbox ActorKit.registry ActorKit.queue ActorKit.scheduler ActorKit.MailboxCalls ActorKit.Moves
open ActorKit.Inventory ActorKit.Transition ActorKit.Counting ActorKit.Slots

/-- Whether client `i` waits for a permit of the actor's mailbox. -/
def Waiting (a : ActorId) (s : System) (i : Nat) : Prop :=
  ∃ kind pushed m remaining mb, s.clients[i]? = some (.push kind a pushed m remaining) ∧
    s.shared.registry.mailboxes.lookup a = some mb ∧ push_one kind mb m = none

/-- A client other than `i` is inside a send to the actor and can go on. -/
def OtherGoes (a : ActorId) (s : System) (i : Nat) : Prop :=
  ∃ j c call admitted, j ≠ i ∧ s.clients[j]? = some c ∧ sending a c ∧
    (c.step s.config s.shared j call admitted).isSome

/-- Whoever waits for a permit of the actor's mailbox is not left alone: a task of
    the actor is queued or being processed, or another send to it can go on. -/
def Served (a : ActorId) (s : System) : Prop :=
  ∀ i, Waiting a s i → (∃ task ∈ tasks s.shared, task.actor_id = a) ∨
    (∃ w ∈ s.workers, ∃ job, holding w = some job ∧ job.actor_id = a) ∨ OtherGoes a s i

/-- The slots a send with something left to push may hold while it waits. -/
def exposure (a : ActorId) (c : Client) : Nat :=
  if unsent a c = [] then 0 else (pushedBy a c).length + (unsent a c).length - 1

/-- A batch is only started while it and the batches in progress, each less its
    last message, leave a slot of the mailbox. -/
def LeavesSlot (a : ActorId) (s : System) : Label → Prop
  | .client i (.send_batch target messages) _ => s.clients[i]? = some .idle → target = a →
    (s.clients.map (exposure a)).sum + (messages.length - 1) < s.config.mailbox_config.capacity
  | _ => True

instance (a : ActorId) (s : System) : (label : Label) → Decidable (LeavesSlot a s label)
  | .client _ (.send_batch ..) _ => inferInstanceAs (Decidable (_ → _ → _ < _))
  | .client _ (.send ..) _ | .client _ (.try_send ..) _ | .client _ (.kill _) _ | .client _ (.set_actor_state ..) _
  | .worker .. | .drop_send _ | .spawn .. | .receive _ | .start_worker _ | .set_running _ => .isTrue trivial

/-- A run of undisturbed sends whose batches leave a slot. -/
def Roomy (a : ActorId) (s : System) (label : Label) : Prop := Undisturbed a s label ∧ LeavesSlot a s label

/-! ## The slots of the batches in progress -/

theorem exposure_idle (a : ActorId) : exposure a .idle = 0 := rfl

/-- What a call that is entered may come to hold. -/
theorem exposure_enter (g : Shared) (call : Call) (a : ActorId) :
    exposure a (Client.enter g call).2 = match call with
      | .send_batch target messages => if target = a then messages.length - 1 else 0
      | _ => 0 := by
  have pushed := enter_unpushed g call a
  unfold exposure
  rw [pushed]
  cases call with
  | send target m | try_send target m =>
    by_cases mine : target = a <;> simp [Client.enter,unsent,stamp,mine]
  | send_batch target messages =>
    cases messages with
    | nil => simp [Client.enter,unsent]
    | cons m rest => by_cases mine : target = a <;> simp [Client.enter,unsent,stamp,mine]
  | kill | set_actor_state => simp [Client.enter,unsent]

/-- Once entered, a call never comes to hold more. -/
theorem exposure_shrinks {config : SchedulerConfig} {g g' : Shared} {i : Nat} {call : Call} {c c' : Client}
    (moves : ClientMove config g i call c g' c') (a : ActorId) :
    (c = .idle ∧ c' = (Client.enter g call).2) ∨ exposure a c' ≤ exposure a c := by
  cases moves with
  | enter => exact .inl ⟨rfl,rfl⟩
  | look before after same _ _ =>
    right
    unfold exposure
    rw [before,after]
    rcases same a with kept | gone
    · rw [kept]
    · simp [gone]
  | @accept kind target pushed remaining m _ _ _ _ =>
    obtain ⟨more,fewer,-⟩ := pushing_next kind target pushed m remaining a
    right
    unfold exposure
    rw [more,fewer]
    by_cases mine : target = a
    · cases remaining with
      | nil => simp [mine]
      | cons next remaining =>
        simp [mine,pushedBy,unsent]
        omega
    · simp [mine]
  | refuse | enqueue | set_state | unregister | kill | clear => exact .inr (Nat.zero_le _)

/-- The slots all sends in progress may come to hold. -/
def exposed (a : ActorId) (s : System) : Nat := (s.clients.map (exposure a)).sum

theorem exposed_step {s s' : System} {label : Label} {a : ActorId}
    (bounded : exposed a s < s.config.mailbox_config.capacity) (leaves : LeavesSlot a s label) (move : Move s label s') :
    exposed a s' < s.config.mailbox_config.capacity := by
  unfold exposed at bounded ⊢
  cases move with
  | @client i call admitted c c' _ found moves =>
    have sums := sum_map_set (exposure a) found c'
    rcases exposure_shrinks moves a with ⟨rfl,rfl⟩ | less
    · rw [exposure_enter,exposure_idle] at sums
      cases call with
      | send_batch target messages =>
        by_cases mine : target = a
        · subst mine
          have room := leaves found rfl
          simp only [if_true] at sums
          dsimp only
          omega
        · simp only [mine,if_false] at sums
          dsimp only
          omega
      | _ =>
        dsimp only at sums ⊢
        omega
    · dsimp only
      omega
  | drop_send found =>
    have sums := sum_map_set (exposure a) found .idle
    rw [exposure_idle] at sums
    dsimp only
    omega
  | _ => exact bounded

theorem exposed_reach {config : SchedulerConfig} (fits : config.mailbox_config.capacity < 2 ^ 64)
    (positive : 0 < config.mailbox_config.capacity) {n : Nat} {a : ActorId} {s : System}
    (reached : Reach System.step (Roomy a) (.init config n) s) : exposed a s < config.mailbox_config.capacity := by
  induction reached with
  | start =>
    have none : exposed a (.init config n) = 0 := by
      refine sum_map_eq_zero _ _ (fun c member => ?_)
      rw [List.eq_of_mem_replicate member]
      rfl
    rw [none]
    exact positive
  | next before allowed stepped ih =>
    obtain ⟨same,sane⟩ := sane_reach fits before
    rw [← same] at ih ⊢
    exact exposed_step ih allowed.2 (step_move sane.toNoLocal stepped).1

/-! ## Nobody waits alone -/

/-- A send that has pushed everything can go on. -/
theorem enqueue_goes {a : ActorId} {s : System} {i j : Nat} {first : Message} {additional : List Message} (other : j ≠ i)
    (found : s.clients[j]? = some (.enqueue a first additional)) : OtherGoes a s i :=
  ⟨j,_,.kill a,true,other,found,rfl,rfl⟩

/-- Where nobody else can go on, the sends hold no more than they are exposed
    to. -/
theorem stuck_holds {a : ActorId} {s : System} {i : Nat} (waits : Waiting a s i) (alone : ¬OtherGoes a s i) :
    ∀ c ∈ s.clients, (pushedBy a c).length ≤ exposure a c := by
  intro c member
  obtain ⟨j,found⟩ := List.getElem?_of_mem member
  cases c with
  | push kind target pushed m remaining =>
    by_cases mine : target = a
    · simp [exposure,pushedBy,unsent,mine]
    · simp [pushedBy,mine]
  | enqueue target first additional =>
    by_cases mine : target = a
    · subst mine
      by_cases self : j = i
      · -- The waiting client is at a push.
        obtain ⟨_,_,_,_,_,pushing,-⟩ := waits
        rw [← self,found] at pushing
        cases pushing
      · exact absurd (enqueue_goes self found) alone
    · simp [pushedBy,mine]
  | _ => simp [pushedBy]

/-- In a run whose batches leave a slot, whoever waits for a permit is served. -/
theorem waiting_served {config : SchedulerConfig} (fits : config.mailbox_config.capacity < 2 ^ 64)
    (positive : 0 < config.mailbox_config.capacity) {n : Nat} {a : ActorId} {s : System}
    (reached : Reach System.step (Roomy a) (.init config n) s)
    (harmless : ∀ m, (a,m) ∈ s.shared.history.accepted → Harmless m) : Served a s := by
  intro i waits
  by_contra stuck
  push Not at stuck
  obtain ⟨unqueued,unheld,alone⟩ := stuck
  obtain ⟨same,sane⟩ := sane_reach fits reached
  have account := (balanced_reach fits (reached.mono (fun _ _ allowed => allowed.1)) harmless).balance
  have bounded := exposed_reach fits positive reached
  have held := sum_map_mono _ _ s.clients (stuck_holds waits alone)
  have queues : queuedWeight (fun _ => 1) a s.shared = 0 := by
    refine sum_map_eq_zero _ _ (fun task member => ?_)
    simp [weight,unqueued task member]
  have workers : (s.workers.map (unreleased a)).sum = 0 := by
    refine sum_map_eq_zero _ _ (fun w member => ?_)
    unfold unreleased
    split
    · next job holds => simp [unheld w member job holds]
    · rfl
  -- The mailbox is full, and only the waiting sends fill it.
  obtain ⟨kind,pushed,m,remaining,mb,-,found,blocked⟩ := waits
  have sound := sane.registry.sound a mb found
  have full : mb.permits = 0 := by
    cases kind with
    | send | send_batch =>
      by_contra some
      obtain ⟨_,stores,-⟩ := deliver_stores (by rw [same]; exact fits) sound m some
      simp [push_one,Mailbox.send,Mailbox.try_acquire,some,stores] at blocked
    | try_send =>
      simp only [push_one] at blocked
      split at blocked <;> cases blocked
  have permits := sound.permits
  have stores : stored a s.shared = MailboxAccounting.queued mb := by simp [stored,found]
  rw [same] at permits
  unfold onTheWay at account
  unfold exposed at bounded
  omega

/-- A batch of two with everything pushed, and a send that finds the mailbox
    full. -/
def fullMailbox : List Label :=
  let m : Message := { sender := none, payload := .Custom [], priority := .Normal }
  [.spawn ⟨1⟩ none,.set_running true,.start_worker 0] ++
    List.replicate 6 (.client 0 (.send_batch ⟨1⟩ [m,m]) true) ++ List.replicate 4 (.client 1 (.send ⟨1⟩ m) true)

/-- Whether a client waits for a permit, as a check. -/
def waits (a : ActorId) (s : System) (i : Nat) : Bool :=
  match s.clients[i]?,s.shared.registry.mailboxes.lookup a with
  | some (.push kind target _ m _),some mb => target == a && (push_one kind mb m).isNone
  | _,_ => false

theorem waits_waiting {a : ActorId} {s : System} {i : Nat} (check : waits a s i = true) : Waiting a s i := by
  unfold waits at check
  split at check
  · next kind target pushed m remaining mb client found =>
    simp only [Bool.and_eq_true,beq_iff_eq,Option.isNone_iff_eq_none] at check
    obtain ⟨rfl,blocked⟩ := check
    exact ⟨kind,pushed,m,remaining,mb,client,found,blocked⟩
  · cases check

theorem waiting_served_full : ∃ s, Reach System.step (Roomy ⟨1⟩) (.init { mailbox_config := { capacity := 2 } } 2) s ∧
    Waiting ⟨1⟩ s 1 ∧ Served ⟨1⟩ s := by
  have seen : (run (fun s label => if LeavesSlot ⟨1⟩ s label then s.step label else none)
      (.init { mailbox_config := { capacity := 2 } } 2) fullMailbox).map
      (fun s => (waits ⟨1⟩ s 1,s.shared.history.accepted.map (·.2.payload))) =
      some (true,[.Custom [],.Custom []]) := by decide +kernel
  obtain ⟨s,runs,same⟩ := Option.map_eq_some_iff.mp seen
  simp only [Prod.mk.injEq] at same
  have reached : Reach System.step (Roomy ⟨1⟩) (.init { mailbox_config := { capacity := 2 } } 2) s :=
    reach_checked .start (calm_undisturbed ⟨1⟩ (by decide)) runs
  exact ⟨s,reached,waits_waiting same.1,
    waiting_served (by decide) (by decide) reached (harmless_custom same.2 (by decide) ⟨1⟩)⟩

/-- A batch of two for a mailbox of one. -/
def batchTooLong : List Label :=
  let m : Message := { sender := none, payload := .Custom [], priority := .Normal }
  [.spawn ⟨1⟩ none,.set_running true,.start_worker 0] ++ List.replicate 5 (.client 0 (.send_batch ⟨1⟩ [m,m]) true)

/-- With the first message pushed the mailbox is full, the task is not enqueued,
    and nobody is there to free the slot. -/
theorem batch_waits_alone : ∃ s, Reach System.step (Undisturbed ⟨1⟩) (.init { mailbox_config := { capacity := 1 } } 1) s ∧
    (∀ m, ((⟨1⟩ : ActorId),m) ∈ s.shared.history.accepted → Harmless m) ∧ s.workers.length = 1 ∧ ¬Served ⟨1⟩ s := by
  have seen : (run System.step (.init { mailbox_config := { capacity := 1 } } 1) batchTooLong).map
      (fun s => (waits ⟨1⟩ s 0,s.shared.history.accepted.map (·.2.payload),(tasks s.shared).length,
        s.workers.map (fun w => (holding w).isSome),s.clients.length)) = some (true,[.Custom []],0,[false],1) := by
    decide +kernel
  obtain ⟨s,runs,same⟩ := Option.map_eq_some_iff.mp seen
  simp only [Prod.mk.injEq] at same
  obtain ⟨blocked,payloads,unqueued,unheld,one⟩ := same
  refine ⟨s,reach_run .start (calm_undisturbed ⟨1⟩ (by decide)) runs,harmless_custom payloads (by decide) ⟨1⟩,
    by simpa using congrArg List.length unheld,?_⟩
  intro served
  rcases served 0 (waits_waiting blocked) with ⟨task,queued,-⟩ | ⟨w,member,job,holds,-⟩ | ⟨j,c,_,_,other,found,-⟩
  · rw [List.length_eq_zero_iff.mp unqueued] at queued
    cases queued
  · have listed : (holding w).isSome ∈ s.workers.map (fun w => (holding w).isSome) := List.mem_map.mpr ⟨w,member,rfl⟩
    rw [unheld,holds] at listed
    simp at listed
  · have inside := (List.getElem?_eq_some_iff.mp found).1
    omega

end ActorKit.Backpressure
