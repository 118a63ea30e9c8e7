import ActorKit.MailboxCalls
import ActorKit.Lib.Machine
import ActorKit.Lib.PriorityFifo

/-!
# A mailbox is a bounded priority queue

Two queues, a size counter and a pool of permits behave as one bounded queue
that hands out the oldest critical message first. Runs of calls on a mailbox
answer as that queue does, and its history accounts for every accepted message.
-/

namespace ActorKit.MailboxFifo
open ActorKit.mailbox ActorKit.MailboxAccounting ActorKit.MailboxCalls ActorKit.PriorityFifo

/-- One call on a mailbox, with what it returns. -/
def call (mb : Mailbox) : Operation Message → Mailbox × Answer Message
  | .send message => match mb.try_send message with
    | (mb,.ok ()) => (mb,.accepted)
    | (mb,.error (rejected,_)) => (mb,.refused rejected)
  | .receive => (mb.try_recv.1,.received mb.try_recv.2)
  | .clear => (mb.clear,.cleared)

/-- The two queues of the mailbox are the two lanes of the abstract one. -/
structure Represents (config : MailboxConfig) (mb : Mailbox) (q : Queue Message) : Prop where
  sound : Sound config mb
  conserves : q.Conserves
  critical : mb.critical_queue = (q.stored.filter (fun e => urgent config e.2)).map (·.2)
  queue : mb.queue = (q.stored.filter (fun e => !urgent config e.2)).map (·.2)

theorem represents_new (actor_id : ActorId) (config : MailboxConfig) : Represents config (.new actor_id config) {} :=
  ⟨sound_new actor_id config,.empty,rfl,rfl⟩

section
variable {config : MailboxConfig} {mb : Mailbox} {q : Queue Message} (related : Represents config mb q)
include related

/-- Both queues together hold what the abstract one stores. -/
theorem queued_stored : queued mb = q.stored.length := by
  rw [queued,related.critical,related.queue,List.length_map,List.length_map,Nat.add_comm]
  exact (List.length_eq_length_filter_add (fun e : Nat × Message => urgent config e.2)).symm

theorem full_iff : mb.permits = 0 ↔ q.stored.length = config.capacity := by
  have permits := related.sound.permits
  have stored := queued_stored related
  omega

theorem len_stored : mb.len = q.stored.length := related.sound.size.trans (queued_stored related)

theorem remaining_stored : mb.remaining_capacity = config.capacity - q.stored.length := by
  rw [Mailbox.remaining_capacity,len_stored related,related.sound.sameConfig]

/-- A full mailbox refuses the message and stays as it is. -/
theorem try_send_full (full : q.stored.length = config.capacity) (message : Message) :
    mb.try_send message = (mb,.error (message,mb.full)) := by
  have none := (full_iff related).mpr full
  simp [Mailbox.try_send,Mailbox.try_acquire,none]

variable (fits : config.capacity < 2 ^ 64)
include fits

theorem try_send_room (room : q.stored.length ≠ config.capacity) (message : Message) :
    ∃ mb', mb.try_send message = (mb',.ok ()) ∧
      Represents config mb' (q.step config.capacity (urgent config) (.send message)).1 := by
  have permit : mb.permits ≠ 0 := fun none => room ((full_iff related).mp none)
  obtain ⟨mb',stored,kept,critical,queue⟩ := deliver_appends fits related.sound message permit
  refine ⟨mb',by simp [Mailbox.try_send,Mailbox.try_acquire,permit,stored],kept,related.conserves.step _ _ _,?_,?_⟩
  · rw [critical,related.critical]
    cases lane : urgent config message <;> simp [Queue.step,room,lane]
  · rw [queue,related.queue]
    cases lane : urgent config message <;> simp [Queue.step,room,lane]

theorem try_recv_next : mb.try_recv.2 = (next (urgent config) q.stored).map (·.2) ∧
    Represents config mb.try_recv.1 (q.step config.capacity (urgent config) .receive).1 := by
  have distinct := related.conserves.distinct
  have conserves := related.conserves.step config.capacity (urgent config) .receive
  cases lane : q.stored.filter (fun e => urgent config e.2) with
  | cons entry rest =>
    -- The oldest critical message.
    have first := next_urgent lane
    have member := next_mem first
    have critical : urgent config entry.2 = true := by
      have inside : entry ∈ q.stored.filter (fun e => urgent config e.2) := by rw [lane]; exact List.mem_cons_self
      simpa using (List.mem_filter.mp inside).2
    obtain ⟨mb',taken,kept,left,same⟩ := try_recv_critical fits related.sound
      (by rw [related.critical,lane]; rfl : mb.critical_queue = entry.2 :: rest.map (·.2))
    simp only [Queue.step,first,taken,Option.map_some,true_and] at conserves ⊢
    refine ⟨kept,conserves,?_,?_⟩
    · rw [left,filter_without (urgent config) distinct lane]
    · rw [same,related.queue,filter_without_other (fun m => !urgent config m) distinct member (by simp [critical])]
  | nil =>
    have none : mb.critical_queue = [] := by rw [related.critical,lane]; rfl
    have first := next_plain lane
    cases others : q.stored.filter (fun e => !urgent config e.2) with
    | nil =>
      have empty : contents mb = [] := by
        rw [contents,none,related.queue,others]
        rfl
      rw [others] at first
      simp only [Queue.step,first,List.head?_nil,try_recv_empty empty,Option.map_none,true_and]
      exact related
    | cons entry rest =>
      rw [others,List.head?_cons] at first
      have member := next_mem first
      have plain : urgent config entry.2 = false := by
        have inside : entry ∈ q.stored.filter (fun e => !urgent config e.2) := by rw [others]; exact List.mem_cons_self
        simpa using (List.mem_filter.mp inside).2
      obtain ⟨mb',taken,kept,left,same⟩ := try_recv_plain fits related.sound none
        (by rw [related.queue,others]; rfl : mb.queue = entry.2 :: rest.map (·.2))
      simp only [Queue.step,first,taken,Option.map_some,true_and] at conserves ⊢
      refine ⟨kept,conserves,?_,?_⟩
      · rw [left,filter_without_other (urgent config) distinct member plain,lane]
        rfl
      · rw [same,filter_without (fun m => !urgent config m) distinct others]

theorem clear_stored : Represents config mb.clear (q.step config.capacity (urgent config) .clear).1 := by
  obtain ⟨kept,empty⟩ := clear_sound fits related.sound
  obtain ⟨critical,queue⟩ := List.append_eq_nil_iff.mp empty
  exact ⟨kept,related.conserves.step _ _ _,critical,queue⟩

/-- One call answers as the abstract queue does. -/
theorem call_simulates (op : Operation Message) :
    Represents config (call mb op).1 (q.step config.capacity (urgent config) op).1 ∧
    (call mb op).2 = (q.step config.capacity (urgent config) op).2 := by
  cases op with
  | send message =>
    by_cases full : q.stored.length = config.capacity
    · simp only [call,try_send_full related full,Queue.step,full,if_true,and_true]
      exact related
    · obtain ⟨mb',sent,after⟩ := try_send_room related fits full message
      refine ⟨by simp only [call,sent]; exact after,?_⟩
      simp only [call,sent,Queue.step,full,if_false]
  | receive =>
    obtain ⟨same,after⟩ := try_recv_next related fits
    refine ⟨after,?_⟩
    simp only [call,same,Queue.step]
    cases next (urgent config) q.stored <;> rfl
  | clear => exact ⟨clear_stored related fits,rfl⟩

end

/-- After every sequence of calls: the answers so far are those of the bounded
    priority queue, the next `try_send` is refused exactly when it is full and
    then changes nothing, the next `try_recv` returns what is due, the counts are
    exact, and every accepted message was received once, discarded once or is
    still stored. -/
theorem lossless_priority_fifo {config : MailboxConfig} (fits : config.capacity < 2 ^ 64) (actor_id : ActorId)
    (ops : List (Operation Message)) :
    let (mb,answers) := Machine.run call (.new actor_id config) ops
    let (q,expected) := Machine.run (Queue.step config.capacity (urgent config)) {} ops
    answers = expected ∧
    (∀ message, if q.stored.length = config.capacity then mb.try_send message = (mb,.error (message,mb.full))
      else (mb.try_send message).2 = .ok ()) ∧
    mb.try_recv.2 = (next (urgent config) q.stored).map (·.2) ∧
    (mb.try_recv.2 = none ↔ q.stored = []) ∧
    mb.len = q.stored.length ∧
    mb.remaining_capacity = config.capacity - q.stored.length ∧
    (q.received ++ q.discarded ++ q.stored).Perm q.accepted ∧
    ((q.received ++ q.discarded ++ q.stored).map (·.1)).Nodup := by
  obtain ⟨related,same⟩ := Machine.run_simulates
    (fun mb q op (related : Represents config mb q) => call_simulates related fits op) (represents_new actor_id config) ops
  have due := (try_recv_next related fits).1
  refine ⟨same,fun message => ?_,due,?_,len_stored related,remaining_stored related,related.conserves.settled,
    related.conserves.settled_once⟩
  · split
    · next full => exact try_send_full related full message
    · next room =>
      obtain ⟨mb',sent,-⟩ := try_send_room related fits room message
      rw [sent]
  · rw [due,Option.map_eq_none_iff]
    exact next_none_iff _

theorem lossless_priority_fifo_two :
    let plain : Message := { sender := none, payload := .Empty, priority := .Normal }
    let critical : Message := { sender := none, payload := .Empty, priority := .Critical }
    ({ capacity := 2 } : MailboxConfig).capacity < 2 ^ 64 ∧
    (Machine.run call (.new ⟨1⟩ { capacity := 2 })
      [.send plain,.send critical,.send plain,.receive,.receive,.receive,.send critical,.clear,.receive]).2 =
      [.accepted,.accepted,.refused plain,.received (some critical),.received (some plain),.received none,.accepted,
        .cleared,.received none] := by
  intro plain critical
  have small : ({ capacity := 2 } : MailboxConfig).capacity < 2 ^ 64 := by decide
  have fifo : ∀ ops, (Machine.run call (.new ⟨1⟩ { capacity := 2 }) ops).2 =
      (Machine.run (Queue.step 2 (urgent { capacity := 2 })) {} ops).2 := by
    intro ops
    exact (lossless_priority_fifo small ⟨1⟩ ops).1
  refine ⟨small,?_⟩
  rw [fifo]
  decide

end ActorKit.MailboxFifo
