import ActorKit.Inventory

/-!
# What becomes of a message

Every message of a call is accepted at most once, carried by one task once its
send completes, and then queued, in the hand of a worker, executed or re-queued.
The last step holds as long as the actor is neither stopped nor failed, for
messages that no drain takes out of the mailbox.
-/

namespace ActorKit.Delivery
open ActorKit.mailbox ActorKit.registry ActorKit.queue ActorKit.scheduler ActorKit.MailboxCalls ActorKit.Moves
open ActorKit.Inventory ActorKit.Transition ActorKit.Counting

/-! ## Accepted once -/

/-- How often a `uid` occurs among the messages still to be pushed to an actor and
    those accepted for it. -/
def issued (a : ActorId) (u : Nat) (s : System) : Nat :=
  (s.clients.map (fun c => (unsent a c).countP (fun m => m.uid = u))).sum +
    s.shared.history.accepted.countP (fun e => e.1 = a ∧ e.2.uid = u)

/-- No `uid` is used twice, and none is used that was not drawn. -/
def Issued (a : ActorId) (s : System) : Prop :=
  ∀ u, issued a u s ≤ 1 ∧ (s.shared.history.next_uid ≤ u → issued a u s = 0)

theorem stamp_cons (next : Nat) (m : Message) (messages : List Message) :
    stamp next (m :: messages) = { m with uid := next } :: stamp (next + 1) messages := by
  simp only [stamp,List.mapIdx_cons,Nat.add_zero,Nat.add_assoc,Nat.add_comm 1]

theorem stamp_uids (next u : Nat) (messages : List Message) :
    (stamp next messages).countP (fun m => m.uid = u) =
      if next ≤ u ∧ u < next + messages.length then 1 else 0 := by
  induction messages generalizing next with
  | nil =>
    rw [if_neg (by simp)]
    rfl
  | cons m messages ih =>
    rw [stamp_cons,List.countP_cons,ih,List.length_cons]
    by_cases first : next = u
    · simp [first]
    · simp only [first,decide_false,Bool.false_eq_true,if_false,Nat.add_zero]
      congr 1
      simp only [eq_iff_iff]
      omega

/-- Entering a call draws one `uid` for each of its messages. -/
theorem enter_stamps (g : Shared) (call : Call) (a : ActorId) :
    ∃ target messages, (Client.enter g call).1.history.next_uid = g.history.next_uid + messages.length ∧
      unsent a (Client.enter g call).2 = if target = a then stamp g.history.next_uid messages else [] := by
  unfold Client.enter
  cases call with
  | send target m | try_send target m => exact ⟨target,[m],rfl,rfl⟩
  | send_batch target messages =>
    dsimp only
    split
    · exact ⟨target,[],rfl,by simp [unsent,stamp]⟩
    · exact ⟨target,messages,rfl,rfl⟩
  | kill id | set_actor_state id => exact ⟨id,[],rfl,by simp [unsent,stamp]⟩

theorem issued_client {s : System} {a : ActorId} {i : Nat} {call : Call} {c c' : Client} {g' : Shared}
    (inv : Issued a s) (found : s.clients[i]? = some c) (moves : ClientMove s.config s.shared i call c g' c') :
    Issued a { s with shared := g', clients := s.clients.set i c' } := by
  intro u
  obtain ⟨once,drawn⟩ := inv u
  have sums := sum_map_set (fun c => (unsent a c).countP (fun m => m.uid = u)) found c'
  -- A call that neither draws nor accepts only forgets messages.
  have forgets : g'.history.accepted = s.shared.history.accepted → g'.history.next_uid = s.shared.history.next_uid →
      (unsent a c').countP (fun m => m.uid = u) ≤ (unsent a c).countP (fun m => m.uid = u) →
      issued a u { s with shared := g', clients := s.clients.set i c' } ≤ 1 ∧
        (g'.history.next_uid ≤ u → issued a u { s with shared := g', clients := s.clients.set i c' } = 0) := by
    intro accepted next fewer
    unfold issued at once drawn ⊢
    simp only [accepted,next]
    constructor
    · omega
    · intro later
      have := drawn later
      omega
  cases moves with
  | enter =>
    obtain ⟨target,messages,next,holds⟩ := enter_stamps s.shared call a
    obtain ⟨drawnUpTo,same⟩ := enter_frame s.shared call
    have accepted : (Client.enter s.shared call).1.history.accepted = s.shared.history.accepted := by rw [same]
    have stamped : (unsent a (Client.enter s.shared call).2).countP (fun m => m.uid = u) ≤
        if s.shared.history.next_uid ≤ u ∧ u < s.shared.history.next_uid + messages.length then 1 else 0 := by
      rw [holds]
      split
      · rw [stamp_uids]
      · exact Nat.zero_le _
    have idle : (unsent a .idle).countP (fun m => m.uid = u) = 0 := rfl
    unfold issued at once drawn ⊢
    simp only [accepted,next]
    rw [idle] at sums
    constructor
    · split at stamped
      · next fresh =>
        have := drawn fresh.1
        omega
      · omega
    · intro later
      rw [if_neg (by omega)] at stamped
      have := drawn (by omega)
      omega
  | look _ _ same _ _ =>
    refine forgets rfl rfl ?_
    rcases same a with kept | gone
    · rw [kept]
    · rw [gone]; exact Nat.zero_le _
  | @accept kind target pushed remaining m mb mb' _ _ =>
    obtain ⟨-,fewer,-⟩ := pushing_next kind target pushed m remaining a
    have moved : (unsent a (.pushing kind target (pushed ++ [m]) remaining)).countP (fun m => m.uid = u) +
        [(target,m)].countP (fun e => e.1 = a ∧ e.2.uid = u) =
        (unsent a (.push kind target pushed m remaining)).countP (fun m => m.uid = u) := by
      rw [fewer]
      by_cases mine : target = a
      · simp [unsent,mine,List.countP_cons]
      · simp [unsent,mine]
    unfold issued at once drawn ⊢
    simp only [List.countP_append]
    constructor
    · omega
    · intro later
      have := drawn later
      omega
  | refuse | enqueue | set_state | kill | clear | unregister => exact forgets rfl rfl (Nat.zero_le _)

theorem issued_step {s s' : System} {label : Label} {a : ActorId} (inv : Issued a s) (move : Move s label s') :
    Issued a s' := by
  cases move with
  | worker _ moves =>
    cases moves with
    | look | take => exact inv
    | @work _ job _ _ steps =>
      have frame := effect_frame (step_effect steps)
      unfold Issued issued at inv ⊢
      simp only [frame.accepted,frame.uids]
      exact inv
  | client found moves => exact issued_client inv found moves
  | drop_send found =>
    intro u
    obtain ⟨once,drawn⟩ := inv u
    have sums := sum_map_set (fun c => (unsent a c).countP (fun m => m.uid = u)) found .idle
    have idle : (unsent a .idle).countP (fun m => m.uid = u) = 0 := rfl
    rw [idle] at sums
    unfold issued at once drawn ⊢
    dsimp only
    constructor
    · omega
    · intro later
      have := drawn later
      omega
  | spawn | receive | start_worker | set_running => exact inv

theorem issued_reach {config : SchedulerConfig} (fits : config.mailbox_config.capacity < 2 ^ 64) {n : Nat}
    {ok : System → Label → Prop} {s : System} (a : ActorId) (reached : Reach System.step ok (.init config n) s) :
    Issued a s := by
  induction reached with
  | start =>
    intro u
    have none : issued a u (.init config n) = 0 := by
      unfold issued
      rw [sum_map_eq_zero]
      · rfl
      · intro c member
        rw [List.eq_of_mem_replicate member]
        rfl
    omega
  | next before _ stepped ih =>
    obtain ⟨-,sane⟩ := sane_reach fits before
    exact issued_step ih (step_move sane.toNoLocal stepped).1

/-- No message is accepted twice. -/
theorem accepted_once {a : ActorId} {s : System} (inv : Issued a s) (m : Message) :
    s.shared.history.accepted.count (a,m) ≤ 1 := by
  have once := (inv m.uid).1
  have same : s.shared.history.accepted.count (a,m) ≤
      s.shared.history.accepted.countP (fun e => e.1 = a ∧ e.2.uid = m.uid) := by
    rw [List.count_eq_countP]
    refine List.countP_mono_left (fun e _ equal => ?_)
    have := eq_of_beq equal
    simp [this]
  unfold issued at once
  omega

/-! ## Carried by one task -/

/-- Counts one message. -/
def only (m : Message) : Message → Nat := fun other => if other = m then 1 else 0

theorem sum_only (m : Message) (messages : List Message) : (messages.map (only m)).sum = messages.count m := by
  induction messages with
  | nil => rfl
  | cons first rest ih =>
    rw [List.map_cons,List.sum_cons,ih,List.count_cons,only,Nat.add_comm]
    simp only [beq_iff_eq]

theorem weight_only (m : Message) (a : ActorId) (task : Task) :
    weight (only m) a task = if task.actor_id = a then task.messages.count m else 0 := by
  rw [weight,sum_only]

/-- How often the enqueued tasks of an actor carry a message. -/
def carried (a : ActorId) (m : Message) (s : System) : Nat :=
  (s.shared.history.enqueued.map (fun e => weight (only m) a e.2)).sum

/-- How often the sends in progress and the enqueued tasks hold a message. -/
def forwarded (a : ActorId) (m : Message) (s : System) : Nat :=
  (s.clients.map (fun c => (pushedBy a c).count m)).sum + carried a m s

theorem forwarded_client {s : System} {a : ActorId} {i : Nat} {call : Call} {c c' : Client} {g' : Shared}
    (fits : s.config.mailbox_config.capacity < 2 ^ 64) (sane : Sane s) (single : ∀ c ∈ s.clients, Single c)
    (found : s.clients[i]? = some c) (moves : ClientMove s.config s.shared i call c g' c') (m : Message) :
    forwarded a m { s with shared := g', clients := s.clients.set i c' } + s.shared.history.accepted.count (a,m) =
      forwarded a m s + g'.history.accepted.count (a,m) := by
  have sums := sum_map_set (fun c => (pushedBy a c).count m) found c'
  have same : g'.history.accepted = s.shared.history.accepted → g'.history.enqueued = s.shared.history.enqueued →
      (pushedBy a c').count m = (pushedBy a c).count m →
      forwarded a m { s with shared := g', clients := s.clients.set i c' } + s.shared.history.accepted.count (a,m) =
        forwarded a m s + g'.history.accepted.count (a,m) := by
    intro accepted enqueued pushed
    unfold forwarded carried
    simp only [accepted,enqueued]
    omega
  cases moves with
  | enter =>
    obtain ⟨next,drawn⟩ := enter_frame s.shared call
    refine same (by rw [drawn]) (by rw [drawn]) ?_
    rw [enter_unpushed]
    rfl
  | look before after _ _ _ => exact same rfl rfl (by rw [before,after])
  | @accept kind target pushed remaining first mb mb' here pushes =>
    obtain ⟨more,-,-⟩ := pushing_next kind target pushed first remaining a
    have grown : (pushedBy a (.pushing kind target (pushed ++ [first]) remaining)).count m =
        (pushedBy a (.push kind target pushed first remaining)).count m + [(target,first)].count (a,m) := by
      rw [more]
      by_cases mine : target = a
      · simp [pushedBy,mine,List.count_cons]
      · simp [pushedBy,mine]
    unfold forwarded carried
    simp only [List.count_append]
    omega
  | @refuse kind target pushed remaining first mb mb' here pushes =>
    obtain ⟨-,-,refused⟩ := push_one_sound fits (sane.registry.sound _ _ here) pushes
    obtain ⟨-,rfl,-⟩ := refused rfl
    obtain ⟨rfl,-⟩ := single _ (List.mem_of_getElem? found) (by simp)
    exact same rfl rfl (by simp [pushedBy])
  | @enqueue target first additional =>
    have handed : weight (only m) a (task_of target first additional) =
        (pushedBy a (.enqueue target first additional)).count m := by
      rw [weight_only]
      by_cases mine : target = a
      · simp [pushedBy,mine,task_of,Task.messages]
      · simp [pushedBy,mine,task_of]
    have idle : (pushedBy a .idle).count m = 0 := rfl
    rw [idle] at sums
    unfold forwarded carried
    simp only [List.map_append,List.map_cons,List.map_nil,List.sum_append,List.sum_cons,List.sum_nil]
    omega
  | set_state | kill | clear | unregister => exact same rfl rfl rfl

/-- A send that is dropped while it waits takes what it has pushed with it. -/
theorem forwarded_drop {s : System} {a : ActorId} {i : Nat} {kind : SendKind} {target : ActorId}
    {pushed remaining : List Message} {first : Message}
    (found : s.clients[i]? = some (.push kind target pushed first remaining)) (m : Message) :
    forwarded a m { s with clients := s.clients.set i .idle } + (if target = a then pushed else []).count m =
      forwarded a m s := by
  have sums := sum_map_set (fun c => (pushedBy a c).count m) found .idle
  have idle : (pushedBy a .idle).count m = 0 := rfl
  have before : pushedBy a (.push kind target pushed first remaining) = if target = a then pushed else [] := rfl
  rw [idle,before] at sums
  unfold forwarded carried
  dsimp only
  omega

/-- Steps other than drops keep the account of the sends. -/
theorem forwarded_step {s s' : System} {label : Label} {a : ActorId}
    (fits : s.config.mailbox_config.capacity < 2 ^ 64) (sane : Sane s) (single : ∀ c ∈ s.clients, Single c)
    (move : Move s label s') (keeps : ∀ i, label ≠ .drop_send i) (m : Message) :
    forwarded a m s' + s.shared.history.accepted.count (a,m) = forwarded a m s + s'.shared.history.accepted.count (a,m) := by
  cases move with
  | worker _ moves =>
    cases moves with
    | look | take => rfl
    | work _ steps =>
      have frame := effect_frame (step_effect steps)
      unfold forwarded carried
      simp only [frame.accepted,frame.enqueued]
  | client found moves => exact forwarded_client fits sane single found moves m
  | drop_send => exact absurd rfl (keeps _)
  | spawn | receive | start_worker | set_running => rfl

/-- Nobody drops the future of a batch to the actor. -/
def Completed (a : ActorId) (s : System) : Label → Prop
  | .drop_send i => ∀ target pushed m remaining, s.clients[i]? = some (.push .send_batch target pushed m remaining) →
    target ≠ a
  | _ => True

/-- In every run nothing is forwarded that was not accepted, and everything is
    while no batch is dropped. -/
theorem forwarded_reach {config : SchedulerConfig} (fits : config.mailbox_config.capacity < 2 ^ 64) {n : Nat}
    {ok : System → Label → Prop} {s : System} {a : ActorId} (m : Message)
    (reached : Reach System.step ok (.init config n) s) :
    forwarded a m s ≤ s.shared.history.accepted.count (a,m) ∧
      ((∀ s label, ok s label → Completed a s label) → forwarded a m s = s.shared.history.accepted.count (a,m)) := by
  induction reached with
  | start =>
    have none : forwarded a m (.init config n) = 0 := by
      unfold forwarded carried
      rw [sum_map_eq_zero]
      · rfl
      · intro c member
        rw [List.eq_of_mem_replicate member]
        rfl
    rw [none]
    exact ⟨Nat.zero_le _,fun _ => rfl⟩
  | @next s _ label before allowed stepped ih =>
    obtain ⟨config_same,sane⟩ := sane_reach fits before
    have single := single_reach before
    have move := (step_move sane.toNoLocal stepped).1
    by_cases dropping : ∃ i, label = .drop_send i
    · obtain ⟨i,rfl⟩ := dropping
      cases move with
      | @drop_send _ kind target pushed remaining first found =>
        have dropped := forwarded_drop (a := a) found m
        refine ⟨by dsimp only; omega,fun completed => ?_⟩
        rw [← ih.2 completed]
        have nothing : (if target = a then pushed else []) = [] := by
          cases kind with
          | send_batch => rw [if_neg (completed _ _ allowed target pushed first remaining found)]
          | send | try_send =>
            rw [(single _ (List.mem_of_getElem? found) (by simp)).1]
            exact ite_self _
        rw [nothing] at dropped
        exact dropped
    · have step := forwarded_step (a := a) (by rw [config_same]; exact fits) sane single move
        (fun i drops => dropping ⟨i,drops⟩) m
      exact ⟨by omega,fun completed => by have := ih.2 completed; omega⟩

/-- No message is carried twice. -/
theorem carried_once {config : SchedulerConfig} (fits : config.mailbox_config.capacity < 2 ^ 64) {n : Nat}
    {ok : System → Label → Prop} {s : System} (a : ActorId) (m : Message)
    (reached : Reach System.step ok (.init config n) s) : forwarded a m s ≤ 1 :=
  (forwarded_reach fits m reached).1.trans (accepted_once (issued_reach fits a reached) m)

end ActorKit.Delivery
