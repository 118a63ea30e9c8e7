import ActorKit.Lib.Ending
import ActorKit.Wakeups

/-!
# Every call on a mailbox ends

Once no thread begins a call, the calls in progress are over after a bounded
number of accesses, in whatever order the threads take them: a receiver looks at
the queues again only after a notification, and every notification belongs to a
message. What is left are receivers that wait beside an empty mailbox, or senders
that wait in front of a full one, and never both.
-/

namespace ActorKit.Completion
open ActorKit.mailbox ActorKit.MailboxAccounting ActorKit.MailboxCalls ActorKit.Transition ActorKit.Counting ActorKit.Ending
  ActorKit.Wakeups

/-- The step goes on with a call. -/
def Continues (s : Threads) (label : Nat × MailboxCall) : Prop := s.pcs[label.1]? ≠ some .idle

/-- What the calls that are not over wait for. -/
structure Settled (s : Threads) : Prop where
  waits : ∀ pc ∈ s.pcs, pc = .idle ∨ pc = .park ∨ ∃ message, pc = .acquire true message
  /-- A receiver waits for a message. -/
  empty : .park ∈ s.pcs → contents s.cells.mb = []
  /-- A sender waits for a place. -/
  full : ∀ message, .acquire true message ∈ s.pcs → (contents s.cells.mb).length = s.cells.mb.config.capacity

/-! ## The accesses that are left -/

/-- What a notification gives to a receiver: one more look at both queues. -/
def awake (waiters : List Nat) (i : Nat) : Nat := if i ∈ waiters then 0 else 4

/-- How many accesses thread `i` of `n` still makes, those of the receivers it
    will wake included. -/
def rank (n : Nat) (waiters : List Nat) (i : Nat) : Pc → Nat
  | .idle => 0
  | .acquire .. => 4 * n + 9
  | .increment _ => 4 * n + 8
  | .push .. => 4 * n + 7
  | .undo_size => 2
  | .undo_permit => 1
  | .threshold _ => 4 * n + 2
  | .notify => 4 * n + 1
  | .register => 3
  | .pop_critical looping => if looping then awake waiters i + 2 else 2
  | .pop_queue looping => if looping then awake waiters i + 1 else 1
  | .decrement _ => 4
  | .release _ => 3
  | .load_size _ => 2
  | .store_flag .. => 1
  | .park => awake waiters i
  | .clear_critical _ => 5
  | .clear_queue _ => 4
  | .clear_decrement _ => 3
  | .clear_release _ => 2
  | .clear_store => 1

/-- A stored message may cost the four accesses after its pop. -/
def left (s : Threads) : Nat :=
  4 * queued s.cells.mb + (s.pcs.mapIdx (rank s.pcs.length s.cells.waiters)).sum

/-- What an access may add to the rank of every thread. -/
def wakes : Pc → Nat
  | .notify => 4
  | _ => 0

theorem awake_le (waiters : List Nat) (i : Nat) : awake waiters i ≤ 4 := by
  unfold awake
  split <;> omega

theorem awake_congr {waiters waiters' : List Nat} {i : Nat} (same : i ∈ waiters' ↔ i ∈ waiters) :
    awake waiters' i = awake waiters i := by
  simp only [awake,same]

theorem rank_le (n : Nat) (waiters waiters' : List Nat) (i : Nat) (pc : Pc) :
    rank n waiters' i pc ≤ rank n waiters i pc + 4 := by
  have small := awake_le waiters' i
  cases pc with
  | pop_critical looping => cases looping <;> simp [rank]; omega
  | pop_queue looping => cases looping <;> simp [rank]; omega
  | park => simp [rank]; omega
  | _ => exact Nat.le_add_right _ _

theorem rank_congr {n : Nat} {waiters waiters' : List Nat} {i : Nat} (same : i ∈ waiters' ↔ i ∈ waiters) (pc : Pc) :
    rank n waiters' i pc = rank n waiters i pc := by
  cases pc <;> simp only [rank,awake_congr same]

/-- An access that is not a notification leaves the other threads registered as
    they are. -/
theorem advance_waiters {pc pc' : Pc} {cells cells' : Cells} {i : Nat} {call : MailboxCall}
    (stepped : pc.advance cells i call = some (cells',pc')) (quiet : pc ≠ .notify) (k : Nat) (other : k ≠ i) :
    k ∈ cells'.waiters ↔ k ∈ cells.waiters := by
  cases pc with
  | notify => exact absurd rfl quiet
  | register =>
    cases stepped
    simp [other]
  | store_flag looping size =>
    cases stepped
    cases looping <;> simp [other]
  | idle | increment | undo_size | undo_permit | threshold | decrement | release | load_size | clear_decrement
  | clear_release | clear_store =>
    cases stepped
    exact Iff.rfl
  | acquire waits message =>
    simp only [Pc.advance] at stepped
    split at stepped
    · cases stepped
      exact Iff.rfl
    · split at stepped <;> cases stepped
      exact Iff.rfl
  | park =>
    simp only [Pc.advance] at stepped
    split at stepped <;> cases stepped
    exact Iff.rfl
  | push | pop_critical | pop_queue | clear_critical | clear_queue =>
    simp only [Pc.advance] at stepped
    split at stepped <;> cases stepped <;> exact Iff.rfl

/-- Every access of a call makes what is left smaller. -/
theorem advance_fewer {n : Nat} {pc pc' : Pc} {cells cells' : Cells} {i : Nat} {call : MailboxCall}
    (stepped : pc.advance cells i call = some (cells',pc')) (begun : pc ≠ .idle) :
    4 * queued cells'.mb + rank n cells'.waiters i pc' + wakes pc * n < 4 * queued cells.mb + rank n cells.waiters i pc := by
  have small := awake_le cells.waiters i
  cases pc with
  | idle => exact absurd rfl begun
  | acquire waits message =>
    simp only [Pc.advance,Mailbox.try_acquire] at stepped
    split at stepped
    · next mb found =>
      split at found <;> cases found
      cases stepped
      simp [rank,wakes,queued]
    · split at stepped <;> cases stepped
      simp [rank,wakes]
  | undo_size | decrement =>
    cases stepped
    obtain ⟨-,critical,queue⟩ := sub_queues cells.mb 1
    simp only [rank,wakes,queued,critical,queue]
    omega
  | clear_decrement total =>
    cases stepped
    obtain ⟨-,critical,queue⟩ := sub_queues cells.mb total
    simp only [rank,wakes,queued,critical,queue]
    omega
  | increment | undo_permit | release | clear_release | clear_store =>
    cases stepped
    simp [rank,wakes,queued,Mailbox.add_size,Mailbox.add_permits,Mailbox.clear_backpressure]
  | push message size =>
    simp only [Pc.advance] at stepped
    split at stepped
    · next mb found =>
      cases stepped
      have more := (push_moved found).count
      simp only [rank,wakes]
      omega
    · cases stepped
      simp only [rank,wakes]
      omega
  | threshold size =>
    cases stepped
    obtain ⟨-,critical,queue⟩ := raise_queues cells.mb size
    simp [rank,wakes,queued,critical,queue]
  | notify =>
    cases stepped
    simp [rank,wakes]
  | register =>
    cases stepped
    simp [rank,wakes,awake]
  | load_size looping =>
    cases stepped
    simp [rank,wakes]
  | pop_critical looping =>
    simp only [Pc.advance] at stepped
    split at stepped
    · next message mb found =>
      cases stepped
      split at found
      · have fewer := (pop_critical_moved found).count
        cases looping <;> simp only [rank,wakes] <;> simp <;> omega
      · cases found
    · cases stepped
      cases looping <;> simp [rank,wakes]
  | pop_queue looping =>
    simp only [Pc.advance] at stepped
    split at stepped
    · next message mb found =>
      cases stepped
      have fewer := (pop_queue_moved found).count
      cases looping <;> simp only [rank,wakes] <;> simp <;> omega
    · cases stepped
      cases looping <;> simp [rank,wakes]
  | store_flag looping size =>
    cases stepped
    obtain ⟨-,critical,queue⟩ := lower_queues cells.mb size
    simp [rank,wakes,queued,critical,queue]
  | park =>
    simp only [Pc.advance] at stepped
    split at stepped
    · cases stepped
    · next woken =>
      cases stepped
      simp [rank,wakes,awake,woken]
  | clear_critical total =>
    simp only [Pc.advance] at stepped
    split at stepped
    · next message mb found =>
      cases stepped
      have fewer := (pop_critical_moved found).count
      simp only [rank,wakes]
      omega
    · cases stepped
      simp [rank,wakes]
  | clear_queue total =>
    simp only [Pc.advance] at stepped
    split at stepped
    · next message mb found =>
      cases stepped
      have fewer := (pop_queue_moved found).count
      simp only [rank,wakes]
      omega
    · cases stepped
      split <;> simp [rank,wakes]

theorem step_fewer {s s' : Threads} {label : Nat × MailboxCall} (continues : Continues s label)
    (stepped : s.step label = some s') : left s' < left s := by
  obtain ⟨pc,found,rest⟩ := Option.bind_eq_some_iff.mp stepped
  obtain ⟨⟨cells,pc'⟩,advanced,same⟩ := Option.bind_eq_some_iff.mp rest
  cases same
  have begun : pc ≠ .idle := by
    rintro rfl
    exact continues found
  have own := advance_fewer (n := s.pcs.length) advanced begun
  have all := ranks_set (rank s.pcs.length s.cells.waiters) (rank s.pcs.length cells.waiters) (wakes pc) found pc'
    (by
      intro k x other
      by_cases notifies : pc = .notify
      · subst notifies
        exact rank_le ..
      · rw [rank_congr (advance_waiters advanced notifies k other)]
        exact Nat.le_add_right _ _)
  simp only [left,List.length_set]
  omega

/-! ## Where nothing is left -/

/-- What the invariants of the mailbox say together. -/
structure Sound (config : MailboxConfig) (s : Threads) : Prop where
  accounted : Accounted config.capacity s
  watched : ∃ w : Watched, w.threads = s ∧ Alert w

theorem sound_reach {actor_id : ActorId} {config : MailboxConfig} {n : Nat} (fits : config.capacity < 2 ^ 64) {s : Threads}
    (reached : Reachable Threads.step (.init actor_id config n) s) : Sound config s := by
  obtain ⟨w,same,seen⟩ := Wakeups.watched reached
  exact ⟨accounted_reachable fits reached,w,same,alert_reach seen⟩

/-- A thread that is stuck is between two calls, or waits for a permit or for a
    message. -/
theorem stuck_waits {s : Threads} (stuck : Stuck Threads.step Continues s) {i : Nat} {pc : Pc} (found : s.pcs[i]? = some pc) :
    pc = .idle ∨ (pc = .park ∧ i ∈ s.cells.waiters) ∨ ∃ message, pc = .acquire true message ∧ s.cells.mb.permits = 0 := by
  by_cases begun : pc = .idle
  · exact .inl begun
  · have refused : pc.advance s.cells i .clear = none := by
      have continues : Continues s (i,.clear) := by
        intro idle
        rw [found] at idle
        cases idle
        exact begun rfl
      have ended := stuck (i,.clear) continues
      rw [Threads.step,found] at ended
      cases advanced : pc.advance s.cells i .clear with
      | none => rfl
      | some next =>
        rw [Option.bind_eq_bind,Option.bind_some,advanced] at ended
        cases ended
    cases pc with
    | idle => exact absurd rfl begun
    | acquire waits message =>
      simp only [Pc.advance,Mailbox.try_acquire] at refused
      split at refused
      · cases refused
      · next missing =>
        split at missing
        · next none =>
          split at refused
          · next waiting => exact .inr (.inr ⟨message,by rw [waiting],none⟩)
          · cases refused
        · cases missing
    | park =>
      simp only [Pc.advance] at refused
      split at refused
      · next asleep => exact .inr (.inl ⟨rfl,asleep⟩)
      · cases refused
    | push | pop_critical | pop_queue | clear_critical | clear_queue =>
      simp only [Pc.advance] at refused
      split at refused <;> cases refused
    | _ => cases refused

theorem stuck_settled {config : MailboxConfig} {s : Threads} (sound : Sound config s)
    (stuck : Stuck Threads.step Continues s) : Settled s := by
  obtain ⟨accounted,w,rfl,alert⟩ := sound
  have each : ∀ pc ∈ w.threads.pcs, pc = .idle ∨ pc = .park ∨
      ∃ message, pc = .acquire true message ∧ w.threads.cells.mb.permits = 0 := by
    intro pc member
    obtain ⟨i,found⟩ := List.getElem?_of_mem member
    rcases stuck_waits stuck found with idle | ⟨parked,-⟩ | waiting
    · exact .inl idle
    · exact .inr (.inl parked)
    · exact .inr (.inr waiting)
  have none : ∀ count : Pc → Nat, count .idle = 0 → count .park = 0 → (∀ message, count (.acquire true message) = 0) →
      (w.threads.pcs.map count).sum = 0 := by
    intro count idle park acquire
    refine sum_map_eq_zero count w.threads.pcs (fun pc member => ?_)
    rcases each pc member with rfl | rfl | ⟨message,rfl,-⟩
    · exact idle
    · exact park
    · exact acquire message
  refine ⟨?_,?_,?_⟩
  · intro pc member
    rcases each pc member with idle | parked | ⟨message,waiting,-⟩
    · exact .inl idle
    · exact .inr (.inl parked)
    · exact .inr (.inr ⟨message,waiting⟩)
  · intro member
    obtain ⟨i,found⟩ := List.getElem?_of_mem member
    rcases stuck_waits stuck found with idle | ⟨-,asleep⟩ | ⟨message,other,-⟩
    · cases idle
    · -- Nobody is about to notify, so the receiver has seen all there is.
      have silent : coming w = [] := by
        refine List.filterMap_eq_nil_iff.mpr (fun slot listed => ?_)
        obtain ⟨j,there⟩ := List.getElem?_of_mem listed
        have flags := congrArg (fun flags => flags[j]?) alert.announced
        simp only [List.getElem?_map,there,Option.map_some] at flags
        obtain ⟨pc,here,announcing⟩ := Option.map_eq_some_iff.mp flags.symm
        rcases each pc (List.mem_of_getElem? here) with rfl | rfl | ⟨message,rfl,-⟩ <;>
          simpa [announces] using announcing
      have known : (contents w.threads.cells.mb).Subperm (coming w) := alert.knows i .park asleep found
      rw [silent] at known
      exact List.subperm_nil.mp known
    · cases other
  · intro message member
    rcases each _ member with idle | parked | ⟨-,-,permits⟩
    · cases idle
    · cases parked
    · have total := accounted.permits
      rw [none held rfl rfl (fun _ => rfl),none popped rfl rfl (fun _ => rfl),permits] at total
      rw [contents_length,accounted.sameCapacity]
      omega

/-- From every reachable state, the calls in progress end within a bounded number
    of accesses when no thread begins another one. Then only receivers of an empty
    mailbox and senders of a full one are left waiting. -/
theorem calls_end {actor_id : ActorId} {config : MailboxConfig} {n : Nat} (fits : config.capacity < 2 ^ 64) {s : Threads}
    (reached : Reachable Threads.step (.init actor_id config n) s) : ComesTo Threads.step Continues Settled s := by
  refine comesTo_of_measure (fun s => Reachable Threads.step (.init actor_id config n) s) left ?_ ?_ reached
  · intro s label s' before continues stepped
    exact ⟨.next before trivial stepped,step_fewer continues stepped⟩
  · intro s before stuck
    exact stuck_settled (sound_reach fits before) stuck

/-- A receiver that has not looked yet, and two senders of which one has the only
    permit. -/
def underway : List (Nat × MailboxCall) :=
  let message : Message := { sender := none, payload := .Empty, priority := .Normal }
  [(0,.recv),(1,.send message),(2,.send message),(1,.clear)]

theorem calls_end_underway : ∃ s, Reachable Threads.step (.init ⟨0⟩ { capacity := 1 } 3) s ∧
    s.pcs.map (fun pc => decide (pc = .idle)) = [false,false,false] ∧ s.cells.mb.permits = 0 ∧
    ComesTo Threads.step Continues Settled s := by
  have seen : (run Threads.step (.init ⟨0⟩ { capacity := 1 } 3) underway).map
      (fun s => (s.pcs.map (fun pc => decide (pc = .idle)),s.cells.mb.permits)) = some ([false,false,false],0) := by
    decide +kernel
  obtain ⟨s,runs,same⟩ := Option.map_eq_some_iff.mp seen
  simp only [Prod.mk.injEq] at same
  have reached := reachable_run .start runs
  exact ⟨s,reached,same.1,same.2,calls_end (by decide) reached⟩

end ActorKit.Completion
