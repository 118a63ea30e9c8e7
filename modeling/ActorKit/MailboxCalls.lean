import ActorKit.MailboxAccounting

/-!
# Uninterrupted mailbox calls

What one call does when nobody else touches the mailbox in between: the counters
agree with the queues before and after, a send is refused exactly when the
mailbox is full, and a receive takes a stored message.
-/

namespace ActorKit.MailboxCalls
open ActorKit.mailbox ActorKit.MailboxAccounting

/-- The stored messages, critical ones first. -/
def contents (mb : Mailbox) : List Message := mb.critical_queue ++ mb.queue

/-- The counters of a mailbox at rest. -/
structure Sound (config : MailboxConfig) (mb : Mailbox) : Prop where
  sameConfig : mb.config = config
  size : mb.size = queued mb
  permits : mb.permits + queued mb = config.capacity
  /-- Without priorities nothing is stored as critical. -/
  plain : config.priority_queue = false → mb.critical_queue = []

theorem contents_length (mb : Mailbox) : (contents mb).length = queued mb := by
  simp [contents,queued]
  omega

theorem sound_new (actor_id : ActorId) (config : MailboxConfig) : Sound config (.new actor_id config) :=
  ⟨rfl,rfl,rfl,fun _ => rfl⟩

section
variable {config : MailboxConfig} (fits : config.capacity < 2 ^ 64)

/-- The flag is all that `raise_backpressure` and `lower_backpressure` change. -/
theorem raise_keeps (mb : Mailbox) (size : Nat) : ∃ flag, mb.raise_backpressure size = { mb with backpressure := flag } := by
  unfold Mailbox.raise_backpressure
  split
  · exact ⟨true,rfl⟩
  · exact ⟨mb.backpressure,rfl⟩

theorem lower_keeps (mb : Mailbox) (size : Nat) : ∃ flag, mb.lower_backpressure size = { mb with backpressure := flag } := by
  unfold Mailbox.lower_backpressure
  split
  · exact ⟨false,rfl⟩
  · exact ⟨mb.backpressure,rfl⟩

/-- Whether a message is stored as critical. -/
def urgent (config : MailboxConfig) (message : Message) : Bool :=
  config.priority_queue && message.priority == .Critical

/-- A mailbox whose counters agree with the queues it holds. -/
theorem Sound.of_queues {mb : Mailbox} (sound : Sound config mb) {critical queue : List Message} {size permits : Nat}
    (flag : Bool) (counted : size = critical.length + queue.length)
    (held : permits + critical.length + queue.length = config.capacity)
    (plain : config.priority_queue = false → critical = []) :
    Sound config { mb with critical_queue := critical, queue, size, permits, backpressure := flag } :=
  ⟨sound.sameConfig,by simp only [queued]; omega,by simp only [queued]; omega,plain⟩

include fits

/-- A push with a permit in hand stores the message at the end of its queue. -/
theorem deliver_appends {mb : Mailbox} (sound : Sound config mb) (message : Message) (permit : mb.permits ≠ 0) :
    ∃ mb', ({ mb with permits := mb.permits - 1 }).deliver message = (mb',.ok ()) ∧ Sound config mb' ∧
      mb'.critical_queue = mb.critical_queue ++ (if urgent config message then [message] else []) ∧
      mb'.queue = mb.queue ++ (if urgent config message then [] else [message]) := by
  have size := sound.size
  have permits := sound.permits
  have grown : fetch_add mb.size 1 = mb.size + 1 := fetch_add_exact (by omega)
  unfold queued at size permits
  simp only [Mailbox.deliver,Mailbox.add_size,Mailbox.push,grown]
  cases critical : urgent config message with
  | true =>
    have here : (mb.config.priority_queue && message.priority == .Critical) = true := by
      rw [sound.sameConfig]
      exact critical
    have room : mb.critical_queue.length < mb.config.capacity := by rw [sound.sameConfig]; omega
    obtain ⟨flag,raised⟩ := raise_keeps
      { mb with permits := mb.permits - 1, size := mb.size + 1, critical_queue := mb.critical_queue ++ [message] }
      (mb.size + 1)
    simp only [here,if_true,room,raised]
    refine ⟨_,rfl,sound.of_queues flag (by simp; omega) (by simp; omega) ?_,rfl,by simp⟩
    intro off
    rw [urgent,off] at critical
    cases critical
  | false =>
    have here : (mb.config.priority_queue && message.priority == .Critical) = false := by
      rw [sound.sameConfig]
      exact critical
    have room : mb.queue.length < mb.config.capacity := by rw [sound.sameConfig]; omega
    obtain ⟨flag,raised⟩ := raise_keeps
      { mb with permits := mb.permits - 1, size := mb.size + 1, queue := mb.queue ++ [message] } (mb.size + 1)
    simp only [here,Bool.false_eq_true,if_false,room,if_true,raised]
    exact ⟨_,rfl,sound.of_queues flag (by simp; omega) (by simp; omega) sound.plain,by simp,rfl⟩

theorem deliver_stores {mb : Mailbox} (sound : Sound config mb) (message : Message) (permit : mb.permits ≠ 0) :
    ∃ mb', ({ mb with permits := mb.permits - 1 }).deliver message = (mb',.ok ()) ∧ Sound config mb' ∧
      (contents mb').Perm (message :: contents mb) := by
  obtain ⟨mb',stored,kept,critical,queue⟩ := deliver_appends fits sound message permit
  refine ⟨mb',stored,kept,?_⟩
  rw [contents,contents,critical,queue]
  cases urgent config message with
  | true =>
    simp only [if_true,List.append_nil,List.append_assoc,List.singleton_append]
    exact List.perm_middle
  | false =>
    simp only [Bool.false_eq_true,if_false,List.append_nil,← List.append_assoc]
    exact List.perm_append_singleton ..

theorem try_send_sound {mb : Mailbox} (sound : Sound config mb) (message : Message) :
    Sound config (mb.try_send message).1 := by
  unfold Mailbox.try_send Mailbox.try_acquire
  by_cases none : mb.permits = 0
  · simp only [none,if_true]
    exact sound
  · obtain ⟨mb',stored,kept,-⟩ := deliver_stores fits sound message none
    simp only [none,if_false,stored]
    exact kept

/-- The rest of a receive after either pop. -/
theorem settle_sound {mb : Mailbox} (sound : Sound config mb) (critical queue : List Message)
    (fewer : queued mb = critical.length + queue.length + 1) (plain : config.priority_queue = false → critical = []) :
    ∃ mb', ({ mb with critical_queue := critical, queue }).settle = mb' ∧ Sound config mb' ∧
      mb'.critical_queue = critical ∧ mb'.queue = queue := by
  have size := sound.size
  have permits := sound.permits
  unfold Mailbox.settle
  have exact : ({ mb with critical_queue := critical, queue } : Mailbox).sub_size 1 =
      { mb with critical_queue := critical, queue, size := mb.size - 1 } :=
    sub_size_exact (by simp only; omega) (by simp only; omega)
  rw [exact]
  obtain ⟨flag,lowered⟩ := lower_keeps
    (({ mb with critical_queue := critical, queue, size := mb.size - 1 } : Mailbox).add_permits 1) (mb.size - 1)
  refine ⟨_,lowered,sound.of_queues flag ?_ ?_ plain,rfl,rfl⟩
  · simp only [Mailbox.add_permits]
    omega
  · simp only [Mailbox.add_permits]
    omega

/-- A receive takes the oldest critical message. -/
theorem try_recv_critical {mb : Mailbox} (sound : Sound config mb) {message : Message} {rest : List Message}
    (first : mb.critical_queue = message :: rest) :
    ∃ mb', mb.try_recv = (mb',some message) ∧ Sound config mb' ∧ mb'.critical_queue = rest ∧ mb'.queue = mb.queue := by
  have on : config.priority_queue = true := by
    cases flag : config.priority_queue with
    | true => rfl
    | false =>
      rw [sound.plain flag] at first
      cases first
  obtain ⟨mb',settled,kept,critical,queue⟩ := settle_sound fits sound rest mb.queue
    (by simp [queued,first]; omega) (by rw [on]; simp)
  refine ⟨mb',?_,kept,critical,queue⟩
  have flag : mb.config.priority_queue = true := by rw [sound.sameConfig]; exact on
  simp only [Mailbox.try_recv,flag,if_true,Mailbox.pop_critical,first]
  rw [← settled]

/-- Without a critical message it takes the oldest of the others. -/
theorem try_recv_plain {mb : Mailbox} (sound : Sound config mb) (none : mb.critical_queue = []) {message : Message}
    {rest : List Message} (first : mb.queue = message :: rest) :
    ∃ mb', mb.try_recv = (mb',some message) ∧ Sound config mb' ∧ mb'.critical_queue = [] ∧ mb'.queue = rest := by
  obtain ⟨mb',settled,kept,critical,queue⟩ := settle_sound fits sound [] rest
    (by simp [queued,none,first]) (fun _ => rfl)
  refine ⟨mb',?_,kept,critical,queue⟩
  simp only [Mailbox.try_recv,Mailbox.pop_critical,none,ite_self,Mailbox.pop_queue,first]
  rw [← settled,← none]

/-- A receive from a mailbox that is not empty takes one stored message. -/
theorem try_recv_takes {mb : Mailbox} (sound : Sound config mb) (some : contents mb ≠ []) :
    ∃ mb' message, mb.try_recv = (mb',Option.some message) ∧ Sound config mb' ∧
      contents mb = message :: contents mb' := by
  cases first : mb.critical_queue with
  | cons message rest =>
    obtain ⟨mb',taken,kept,critical,queue⟩ := try_recv_critical fits sound first
    exact ⟨mb',message,taken,kept,by simp [contents,first,critical,queue]⟩
  | nil =>
    cases next : mb.queue with
    | nil => simp [contents,first,next] at some
    | cons message rest =>
      obtain ⟨mb',taken,kept,critical,queue⟩ := try_recv_plain fits sound first next
      exact ⟨mb',message,taken,kept,by simp [contents,first,next,critical,queue]⟩

omit fits in
theorem try_recv_empty {mb : Mailbox} (none : contents mb = []) : mb.try_recv = (mb,Option.none) := by
  obtain ⟨critical,queue⟩ := List.append_eq_nil_iff.mp none
  simp [Mailbox.try_recv,Mailbox.pop_critical,Mailbox.pop_queue,critical,queue]

theorem try_recv_sound {mb : Mailbox} (sound : Sound config mb) : Sound config mb.try_recv.1 := by
  by_cases none : contents mb = []
  · rw [try_recv_empty none]
    exact sound
  · obtain ⟨mb',message,taken,kept,-⟩ := try_recv_takes fits sound none
    rw [taken]
    exact kept

theorem clear_sound {mb : Mailbox} (sound : Sound config mb) : Sound config mb.clear ∧ contents mb.clear = [] := by
  have size := sound.size
  have permits := sound.permits
  unfold queued at size permits
  unfold Mailbox.clear
  by_cases some : 0 < mb.critical_queue.length + mb.queue.length
  · have exact := @sub_size_exact { mb with critical_queue := [], queue := [] }
      (mb.critical_queue.length + mb.queue.length) (by simp only; omega) (by simp only; omega)
    simp only [some,if_true,exact,Mailbox.add_permits,Mailbox.clear_backpressure]
    refine ⟨⟨sound.sameConfig,?_,?_,fun _ => rfl⟩,rfl⟩
    · simp [queued]; omega
    · simp [queued]; omega
  · simp only [some,if_false,Mailbox.clear_backpressure]
    refine ⟨⟨sound.sameConfig,?_,?_,fun _ => rfl⟩,rfl⟩
    · simp [queued]; omega
    · simp [queued]; omega

omit fits in
/-- What is stored, lane by lane. -/
structure Resting (config : MailboxConfig) (mb : Mailbox) : Prop extends Sound config mb where
  critical : ∀ m ∈ mb.critical_queue, urgent config m = true
  ordinary : ∀ m ∈ mb.queue, urgent config m = false

omit fits in
theorem resting_new (actor_id : ActorId) : Resting config (.new actor_id config) :=
  ⟨sound_new actor_id config,nofun,nofun⟩

/-- A send without a permit changes nothing, one with a permit stores the message
    at the end of its queue. -/
theorem try_send_cases {mb : Mailbox} (resting : Resting config mb) (message : Message) :
    (mb.permits = 0 ∧ (mb.try_send message).1 = mb) ∨
    (mb.permits ≠ 0 ∧ Resting config (mb.try_send message).1 ∧
      (mb.try_send message).1.critical_queue = mb.critical_queue ++ (if urgent config message then [message] else []) ∧
      (mb.try_send message).1.queue = mb.queue ++ (if urgent config message then [] else [message])) := by
  unfold Mailbox.try_send Mailbox.try_acquire
  by_cases none : mb.permits = 0
  · exact .inl ⟨none,by simp [none]⟩
  · obtain ⟨mb',stored,kept,critical,queue⟩ := deliver_appends fits resting.toSound message none
    simp only [none,if_false,stored]
    refine .inr ⟨none,⟨kept,?_,?_⟩,critical,queue⟩
    · rw [critical]
      intro m member
      rcases List.mem_append.mp member with old | new
      · exact resting.critical m old
      · split at new
        · next here => rwa [List.mem_singleton.mp new]
        · cases new
    · rw [queue]
      intro m member
      rcases List.mem_append.mp member with old | new
      · exact resting.ordinary m old
      · split at new
        · cases new
        · next other =>
          rw [List.mem_singleton.mp new]
          simpa using other

theorem try_recv_resting {mb : Mailbox} (resting : Resting config mb) : Resting config mb.try_recv.1 := by
  cases first : mb.critical_queue with
  | cons message rest =>
    obtain ⟨mb',taken,kept,critical,queue⟩ := try_recv_critical fits resting.toSound first
    rw [taken]
    refine ⟨kept,?_,by rw [queue]; exact resting.ordinary⟩
    rw [critical]
    exact fun m member => resting.critical m (by rw [first]; exact List.mem_cons_of_mem _ member)
  | nil =>
    cases next : mb.queue with
    | nil =>
      rw [try_recv_empty (by rw [contents,first,next]; rfl)]
      exact resting
    | cons message rest =>
      obtain ⟨mb',taken,kept,critical,queue⟩ := try_recv_plain fits resting.toSound first next
      rw [taken]
      refine ⟨kept,by rw [critical]; nofun,?_⟩
      rw [queue]
      exact fun m member => resting.ordinary m (by rw [next]; exact List.mem_cons_of_mem _ member)

theorem clear_resting {mb : Mailbox} (resting : Resting config mb) :
    Resting config mb.clear ∧ contents mb.clear = [] ∧ mb.clear.permits = config.capacity := by
  obtain ⟨kept,empty⟩ := clear_sound fits resting.toSound
  have permits := kept.permits
  rw [← contents_length,empty] at permits
  obtain ⟨critical,queue⟩ := List.append_eq_nil_iff.mp empty
  exact ⟨⟨kept,by rw [critical]; nofun,by rw [queue]; nofun⟩,empty,permits⟩

/-- A blocking send waits exactly without a permit, and otherwise stores the
    message. -/
theorem send_stores {mb : Mailbox} (sound : Sound config mb) (message : Message) :
    (mb.send message = none ↔ mb.permits = 0) ∧
    ∀ mb' result, mb.send message = some (mb',result) →
      result = .ok () ∧ Sound config mb' ∧ (contents mb').Perm (message :: contents mb) := by
  unfold Mailbox.send Mailbox.try_acquire
  by_cases none : mb.permits = 0
  · simp [none]
  · obtain ⟨mb',stored,kept,perm⟩ := deliver_stores fits sound message none
    simp only [none,if_false,stored,reduceCtorEq,true_and,Option.some.injEq,
      Prod.mk.injEq]
    rintro _ _ ⟨rfl,rfl⟩
    exact ⟨rfl,kept,perm⟩

theorem try_send_stores {mb : Mailbox} (sound : Sound config mb) (message : Message) :
    (mb.permits = 0 ∧ mb.try_send message = (mb,.error (message,mb.full))) ∨
    ∃ mb', mb.try_send message = (mb',.ok ()) ∧ Sound config mb' ∧ (contents mb').Perm (message :: contents mb) := by
  unfold Mailbox.try_send Mailbox.try_acquire
  by_cases none : mb.permits = 0
  · exact .inl ⟨none,by simp [none]⟩
  · obtain ⟨mb',stored,kept,perm⟩ := deliver_stores fits sound message none
    exact .inr ⟨mb',by simp [none,stored],kept,perm⟩

end
end ActorKit.MailboxCalls
