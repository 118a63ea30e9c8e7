import ActorKit.MailboxSteps
import ActorKit.Lib.Counting

/-!
# The accounts of a mailbox

Every permit is available, held by a sender that has not pushed, stands for a
queued message, or belongs to a popped message whose permit is not returned yet.
The size counter counts the same messages with a delay of its own. Both sums are
kept by every access of every thread.
-/

namespace ActorKit.MailboxAccounting
open ActorKit.mailbox ActorKit.Transition ActorKit.Counting

/-- The permits a sender holds before its push. -/
def held : Pc → Nat
  | .increment _ | .push _ _ | .undo_size | .undo_permit => 1
  | _ => 0

/-- The messages a thread has popped and not returned the permits of. -/
def popped : Pc → Nat
  | .decrement _ | .release _ => 1
  | .clear_critical total | .clear_queue total | .clear_decrement total | .clear_release total => total
  | _ => 0

/-- What a sender has added to the size counter before its push. -/
def counted : Pc → Nat
  | .push _ _ | .undo_size => 1
  | _ => 0

/-- The messages a thread has popped and not subtracted from the counter. -/
def uncounted : Pc → Nat
  | .decrement _ => 1
  | .clear_critical total | .clear_queue total | .clear_decrement total => total
  | _ => 0

/-- What the next access of a thread subtracts from the size counter. -/
def subtracts : Pc → Nat
  | .undo_size | .decrement _ => 1
  | .clear_decrement total => total
  | _ => 0

/-- The two accesses after a push that failed. -/
def undoes : Pc → Bool
  | .undo_size | .undo_permit => true
  | _ => false

def queued (mb : Mailbox) : Nat := mb.queue.length + mb.critical_queue.length

/-- What the counters of a mailbox and its threads add up to. -/
structure Accounted (capacity : Nat) (s : Threads) : Prop where
  sameCapacity : s.cells.mb.config.capacity = capacity
  permits : s.cells.mb.permits + (s.pcs.map held).sum + queued s.cells.mb + (s.pcs.map popped).sum = capacity
  size : s.cells.mb.size = (s.pcs.map counted).sum + queued s.cells.mb + (s.pcs.map uncounted).sum
  pushed : ∀ pc ∈ s.pcs, undoes pc = false

theorem fetch_add_exact {counter n : Nat} (small : counter + n < 2 ^ 64) : fetch_add counter n = counter + n :=
  Nat.mod_eq_of_lt small

theorem fetch_sub_exact {counter n : Nat} (enough : n ≤ counter) (small : counter < 2 ^ 64) :
    fetch_sub counter n = counter - n := by
  unfold fetch_sub
  omega

theorem sub_size_exact {mb : Mailbox} {n : Nat} (enough : n ≤ mb.size) (small : mb.size < 2 ^ 64) :
    mb.sub_size n = { mb with size := mb.size - n } := by
  rw [Mailbox.sub_size,fetch_sub_exact enough small]

/-! ## One access -/

/-- A push that succeeds puts the message at the end of the queue it belongs to. -/
theorem push_some {mb mb' : Mailbox} {message : Message} (pushed : mb.push message = some mb') :
    (mb.config.priority_queue = true ∧ mb' = { mb with critical_queue := mb.critical_queue ++ [message] }) ∨
      mb' = { mb with queue := mb.queue ++ [message] } := by
  unfold Mailbox.push at pushed
  split at pushed
  · next urgent =>
    split at pushed <;> cases pushed
    exact .inl ⟨(Bool.and_eq_true_iff.mp urgent).1,rfl⟩
  · split at pushed <;> cases pushed
    exact .inr rfl

theorem push_room {mb : Mailbox} (message : Message) (room : queued mb < mb.config.capacity) :
    ∃ mb', mb.push message = some mb' := by
  unfold queued at room
  unfold Mailbox.push
  split
  · rw [if_pos (by omega)]
    exact ⟨_,rfl⟩
  · rw [if_pos (by omega)]
    exact ⟨_,rfl⟩

theorem pop_critical_some {mb mb' : Mailbox} {message : Message} (popped : mb.pop_critical = some (message,mb')) :
    ∃ rest, mb.critical_queue = message :: rest ∧ mb' = { mb with critical_queue := rest } := by
  unfold Mailbox.pop_critical at popped
  split at popped
  · cases popped
  · next first rest found =>
    cases popped
    exact ⟨rest,found,rfl⟩

theorem pop_critical_none {mb : Mailbox} (empty : mb.pop_critical = none) : mb.critical_queue = [] := by
  unfold Mailbox.pop_critical at empty
  split at empty
  · assumption
  · cases empty

theorem pop_queue_some {mb mb' : Mailbox} {message : Message} (popped : mb.pop_queue = some (message,mb')) :
    ∃ rest, mb.queue = message :: rest ∧ mb' = { mb with queue := rest } := by
  unfold Mailbox.pop_queue at popped
  split at popped
  · cases popped
  · next first rest found =>
    cases popped
    exact ⟨rest,found,rfl⟩

theorem pop_queue_none {mb : Mailbox} (empty : mb.pop_queue = none) : mb.queue = [] := by
  unfold Mailbox.pop_queue at empty
  split at empty
  · assumption
  · cases empty

/-- The fields an access of a queue moves: how many messages are stored, and
    nothing of the counters. -/
structure Moved (stored stored' : Nat) (mb mb' : Mailbox) : Prop where
  config : mb'.config = mb.config
  permits : mb'.permits = mb.permits
  size : mb'.size = mb.size
  count : queued mb' + stored = queued mb + stored'

theorem push_moved {mb mb' : Mailbox} {message : Message} (pushed : mb.push message = some mb') : Moved 0 1 mb mb' := by
  rcases push_some pushed with ⟨-,rfl⟩ | rfl
  · exact ⟨rfl,rfl,rfl,by simp [queued]; omega⟩
  · exact ⟨rfl,rfl,rfl,by simp [queued]; omega⟩

theorem pop_critical_moved {mb mb' : Mailbox} {message : Message} (popped : mb.pop_critical = some (message,mb')) :
    Moved 1 0 mb mb' := by
  obtain ⟨rest,found,rfl⟩ := pop_critical_some popped
  exact ⟨rfl,rfl,rfl,by simp [queued,found]; omega⟩

theorem pop_queue_moved {mb mb' : Mailbox} {message : Message} (popped : mb.pop_queue = some (message,mb')) :
    Moved 1 0 mb mb' := by
  obtain ⟨rest,found,rfl⟩ := pop_queue_some popped
  exact ⟨rfl,rfl,rfl,by simp [queued,found]; omega⟩

/-- What one access of a thread with `pc` may rely on. -/
structure Local (pc : Pc) (mb : Mailbox) : Prop where
  /-- A sender that holds a permit finds its queue with room. -/
  room : 0 < held pc → queued mb < mb.config.capacity
  /-- The counter holds what the access subtracts from it. -/
  enough : subtracts pc ≤ mb.size
  below : mb.size < 2 ^ 64
  grows : counted pc < held pc → mb.size + 1 < 2 ^ 64
  pushed : undoes pc = false

/-- What one access of a thread keeps: the permits and messages it moves
    between the shared cells and itself. -/
structure Balanced (pc pc' : Pc) (mb mb' : Mailbox) : Prop where
  config : mb'.config = mb.config
  permits : mb'.permits + held pc' + queued mb' + popped pc' = mb.permits + held pc + queued mb + popped pc
  size : mb'.size + counted pc + queued mb + uncounted pc = mb.size + counted pc' + queued mb' + uncounted pc'
  pushed : undoes pc' = false

theorem advance_balanced {pc pc' : Pc} {cells cells' : Cells} {i : Nat} {call : MailboxCall}
    (may : Local pc cells.mb) (stepped : pc.advance cells i call = some (cells',pc')) :
    Balanced pc pc' cells.mb cells'.mb := by
  have below := may.below
  cases pc with
  | idle =>
    cases stepped
    cases call <;> exact ⟨rfl,rfl,rfl,rfl⟩
  | acquire waits message =>
    simp only [Pc.advance,Mailbox.try_acquire] at stepped
    split at stepped
    · next mb found =>
      split at found
      · cases found
      · next some =>
        cases found
        cases stepped
        exact ⟨rfl,by simp [held,popped,queued]; omega,rfl,rfl⟩
    · split at stepped
      · cases stepped
      · cases stepped
        exact ⟨rfl,rfl,rfl,rfl⟩
  | increment message =>
    cases stepped
    have exact := fetch_add_exact (may.grows (by simp [counted,held]))
    exact ⟨rfl,rfl,by simp [Mailbox.add_size,exact,counted,uncounted,queued],rfl⟩
  | push message size =>
    obtain ⟨mb,room⟩ := push_room message (may.room (by simp [held]))
    obtain ⟨config,permits,same,more⟩ := push_moved room
    simp only [Pc.advance,room,Option.some.injEq,Prod.mk.injEq] at stepped
    obtain ⟨rfl,rfl⟩ := stepped
    exact ⟨config,by simp [held,popped,permits]; omega,by simp [counted,uncounted,same]; omega,rfl⟩
  | undo_size | undo_permit => cases may.pushed
  | threshold size =>
    cases stepped
    simp only [Mailbox.raise_backpressure]
    split <;> exact ⟨rfl,rfl,rfl,rfl⟩
  | notify | register | load_size =>
    cases stepped
    exact ⟨rfl,rfl,rfl,rfl⟩
  | pop_critical looping =>
    simp only [Pc.advance] at stepped
    split at stepped
    · next message mb found =>
      cases stepped
      split at found
      · obtain ⟨config,permits,same,fewer⟩ := pop_critical_moved found
        exact ⟨config,by simp [held,popped,permits]; omega,by simp [counted,uncounted,same]; omega,rfl⟩
      · cases found
    · cases stepped
      exact ⟨rfl,rfl,rfl,rfl⟩
  | pop_queue looping =>
    simp only [Pc.advance] at stepped
    split at stepped
    · next message mb found =>
      cases stepped
      obtain ⟨config,permits,same,fewer⟩ := pop_queue_moved found
      exact ⟨config,by simp [held,popped,permits]; omega,by simp [counted,uncounted,same]; omega,rfl⟩
    · cases stepped
      split <;> exact ⟨rfl,rfl,rfl,rfl⟩
  | decrement looping =>
    have exact := sub_size_exact (n := 1) may.enough below
    simp only [Pc.advance,exact,Option.some.injEq,Prod.mk.injEq] at stepped
    obtain ⟨rfl,rfl⟩ := stepped
    have enough : 1 ≤ cells.mb.size := may.enough
    exact ⟨rfl,rfl,by simp [counted,uncounted,queued]; omega,rfl⟩
  | release looping =>
    cases stepped
    exact ⟨rfl,by simp [Mailbox.add_permits,held,popped,queued]; omega,rfl,rfl⟩
  | store_flag looping size =>
    cases stepped
    simp only [Mailbox.lower_backpressure]
    split <;> exact ⟨rfl,rfl,rfl,rfl⟩
  | park =>
    simp only [Pc.advance] at stepped
    split at stepped
    · cases stepped
    · cases stepped
      exact ⟨rfl,rfl,rfl,rfl⟩
  | clear_critical total =>
    simp only [Pc.advance] at stepped
    split at stepped
    · next message mb found =>
      cases stepped
      obtain ⟨config,permits,same,fewer⟩ := pop_critical_moved found
      exact ⟨config,by simp [held,popped,permits]; omega,by simp [counted,uncounted,same]; omega,rfl⟩
    · cases stepped
      exact ⟨rfl,rfl,rfl,rfl⟩
  | clear_queue total =>
    simp only [Pc.advance] at stepped
    split at stepped
    · next message mb found =>
      cases stepped
      obtain ⟨config,permits,same,fewer⟩ := pop_queue_moved found
      exact ⟨config,by simp [held,popped,permits]; omega,by simp [counted,uncounted,same]; omega,rfl⟩
    · cases stepped
      by_cases some : 0 < total
      · rw [if_pos some]; exact ⟨rfl,rfl,rfl,rfl⟩
      · obtain rfl : total = 0 := by omega
        exact ⟨rfl,rfl,rfl,rfl⟩
  | clear_decrement total =>
    have exact := sub_size_exact (n := total) may.enough below
    simp only [Pc.advance,exact,Option.some.injEq,Prod.mk.injEq] at stepped
    obtain ⟨rfl,rfl⟩ := stepped
    have enough : total ≤ cells.mb.size := may.enough
    exact ⟨rfl,rfl,by simp [counted,uncounted,queued]; omega,rfl⟩
  | clear_release total =>
    cases stepped
    exact ⟨rfl,by simp [Mailbox.add_permits,held,popped,queued]; omega,rfl,rfl⟩
  | clear_store =>
    cases stepped
    exact ⟨rfl,rfl,rfl,rfl⟩

/-! ## Every run -/

theorem accounted_init (actor_id : ActorId) (config : MailboxConfig) (n : Nat) :
    Accounted config.capacity (.init actor_id config n) := by
  refine ⟨rfl,?_,?_,?_⟩
  · simp [Threads.init,Mailbox.new,queued,held,popped]
  · simp [Threads.init,Mailbox.new,queued,counted,uncounted]
  · intro pc member
    rw [List.eq_of_mem_replicate member]
    rfl

/-- The size counter is at most the capacity, and every thread finds in the
    cells what its next access relies on. -/
theorem Accounted.bounds {capacity : Nat} {s : Threads} (inv : Accounted capacity s) :
    s.cells.mb.size ≤ capacity ∧ ∀ pc ∈ s.pcs, capacity < 2 ^ 64 → Local pc s.cells.mb := by
  have permits := inv.permits
  have size := inv.size
  have early := sum_map_mono counted held s.pcs (fun pc _ => by cases pc <;> simp [counted,held])
  have late := sum_map_mono uncounted popped s.pcs (fun pc _ => by cases pc <;> simp [uncounted,popped])
  have bounded : s.cells.mb.size ≤ capacity := by omega
  refine ⟨bounded,fun pc member fits => ?_⟩
  have own := le_sum_map held member
  have ownPopped := le_sum_map uncounted member
  have ownCounted := le_sum_map counted member
  have clean := inv.pushed pc member
  have taken : subtracts pc ≤ counted pc + uncounted pc := by cases pc <;> simp [subtracts,counted,uncounted]
  refine ⟨?_,by omega,by omega,?_,clean⟩
  · intro holds
    rw [inv.sameCapacity]
    omega
  · intro grows
    have apart := sum_map_mono (fun pc => counted pc + (if counted pc < held pc then 1 else 0)) held s.pcs
      (fun pc _ => by cases pc <;> simp [counted,held])
    have mine := le_sum_map (fun pc => if counted pc < held pc then 1 else 0) member
    rw [List.sum_map_add] at apart
    simp only [grows,if_true] at mine
    omega

theorem accounted_step {capacity : Nat} (fits : capacity < 2 ^ 64) {s s' : Threads} {label : Nat × MailboxCall}
    (inv : Accounted capacity s) (stepped : s.step label = some s') : Accounted capacity s' := by
  obtain ⟨pc,found,rest⟩ := Option.bind_eq_some_iff.mp stepped
  obtain ⟨⟨cells,pc'⟩,advanced,same⟩ := Option.bind_eq_some_iff.mp rest
  cases same
  have member := List.mem_of_getElem? found
  have kept := advance_balanced (inv.bounds.2 pc member fits) advanced
  have permits := inv.permits
  have size := inv.size
  have balance := kept.permits
  have counts := kept.size
  have heldSum := sum_map_set held found pc'
  have poppedSum := sum_map_set popped found pc'
  have countedSum := sum_map_set counted found pc'
  have uncountedSum := sum_map_set uncounted found pc'
  refine ⟨by simp only [kept.config]; exact inv.sameCapacity,by simp only; omega,by simp only; omega,?_⟩
  intro other listed
  rcases List.mem_or_eq_of_mem_set listed with old | new
  · exact inv.pushed other old
  · rw [new]; exact kept.pushed

theorem accounted_reachable {actor_id : ActorId} {config : MailboxConfig} {n : Nat} (fits : config.capacity < 2 ^ 64)
    {s : Threads} (reached : Reachable Threads.step (.init actor_id config n) s) : Accounted config.capacity s :=
  reached.invariant (accounted_init actor_id config n) (fun _ _ _ inv _ stepped => accounted_step fits inv stepped)

/-- In every reachable state the permits add up to the capacity, no push is
    refused, the size counter neither wraps nor exceeds the capacity, and at rest
    it is the number of stored messages and leaves the other permits available. -/
theorem mailbox_accounting (actor_id : ActorId) (config : MailboxConfig) (n : Nat) (fits : config.capacity < 2 ^ 64)
    (s : Threads) (reached : Reachable Threads.step (.init actor_id config n) s) :
    s.cells.mb.permits + (s.pcs.map held).sum + (s.cells.mb.queue.length + s.cells.mb.critical_queue.length) +
        (s.pcs.map popped).sum = config.capacity ∧
    (∀ pc ∈ s.pcs, pc ≠ .undo_size ∧ pc ≠ .undo_permit) ∧
    (∀ message size, .push message size ∈ s.pcs → (s.cells.mb.push message).isSome) ∧
    (∀ pc ∈ s.pcs, subtracts pc ≤ s.cells.mb.size) ∧
    s.cells.mb.size ≤ config.capacity ∧
    ((∀ pc ∈ s.pcs, pc = .idle ∨ pc = .park) →
      s.cells.mb.size = s.cells.mb.queue.length + s.cells.mb.critical_queue.length ∧
        s.cells.mb.permits = config.capacity - s.cells.mb.size) := by
  have inv := accounted_reachable fits reached
  obtain ⟨bounded,each⟩ := inv.bounds
  refine ⟨inv.permits,?_,?_,fun pc member => (each pc member fits).enough,bounded,?_⟩
  · intro pc member
    have clean := inv.pushed pc member
    constructor <;> rintro rfl <;> cases clean
  · intro message size member
    obtain ⟨mb',room⟩ := push_room message ((each _ member fits).room (by simp [held]))
    rw [room]
    rfl
  · intro rest
    have none : ∀ count : Pc → Nat, count .idle = 0 → count .park = 0 → (s.pcs.map count).sum = 0 := by
      intro count idle park
      refine sum_map_eq_zero count s.pcs (fun pc member => ?_)
      rcases rest pc member with rfl | rfl
      · exact idle
      · exact park
    have permits := inv.permits
    have size := inv.size
    rw [none held rfl rfl,none popped rfl rfl] at permits
    rw [none counted rfl rfl,none uncounted rfl rfl] at size
    unfold queued at permits size
    omega

/-- A sender interrupted between its permit and its push, and a receiver between
    its pop and its permit. -/
def interrupted : List (Nat × MailboxCall) :=
  let message : Message := { sender := none, payload := .Empty, priority := .Normal }
  [(0,.try_send message),(0,.clear),(0,.clear),(0,.clear),(0,.clear),(0,.clear),(0,.send message),(0,.clear),
    (1,.try_recv),(1,.clear),(1,.clear)]

theorem mailbox_accounting_interrupted :
    ∃ s, run Threads.step (.init ⟨0⟩ { capacity := 2 } 2) interrupted = some s ∧ s.cells.mb.permits = 0 ∧
      s.pcs.map held = [1,0] ∧ s.pcs.map popped = [0,1] ∧
      s.cells.mb.permits + (s.pcs.map held).sum + (s.cells.mb.queue.length + s.cells.mb.critical_queue.length) +
        (s.pcs.map popped).sum = 2 := by
  have counts : (run Threads.step (.init ⟨0⟩ { capacity := 2 } 2) interrupted).map
      (fun s => (s.cells.mb.permits,s.pcs.map held,s.pcs.map popped)) = some (0,[1,0],[0,1]) := by decide +kernel
  obtain ⟨s,runs,same⟩ := Option.map_eq_some_iff.mp counts
  simp only [Prod.mk.injEq] at same
  exact ⟨s,runs,same.1,same.2.1,same.2.2,
    (mailbox_accounting ⟨0⟩ { capacity := 2 } 2 (by decide) s (reachable_run .start runs)).1⟩

end ActorKit.MailboxAccounting
