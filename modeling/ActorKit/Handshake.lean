import ActorKit.Completion
import ActorKit.LoomDouble

/-!
# The double's handshake

A receiver of the double registers before it looks at the queue. So every call
ends, and the only deadlock that is left is a receiver beside a mailbox that is
fully drained. The loop that looks first loses a wakeup.
-/

namespace ActorKit.Handshake
open ActorKit.loom_mailbox ActorKit.Transition ActorKit.Simulation ActorKit.Ending ActorKit.LoomDouble
open ActorKit.mailbox (default_threshold)

/-- The step goes on with a call. -/
def GoesOn (s : Threads) (label : Nat × LoomCall) : Prop := s.pcs[label.1]? ≠ some .idle

/-- What is left when no call can go on. -/
structure Rests (s : Threads) : Prop where
  waits : ∀ pc ∈ s.pcs, pc = .idle ∨ pc = .park false
  counted : s.cells.mailbox.size = s.cells.mailbox.queue.length
  restored : s.cells.mailbox.permits + s.cells.mailbox.queue.length = s.cells.mailbox.capacity
  /-- A receiver waits for a message. -/
  drained : .park false ∈ s.pcs → s.cells.mailbox.is_fully_drained = true

/-! ## The accesses that are left -/

/-- A token that a receiver has not consumed lets it look at the gate again. -/
def token (cells : Cells) (i : Nat) : Nat := if i ∈ cells.unparked then 2 else 0

/-- A gate without a registration lets a receiver look at the queue again. -/
def open_ (cells : Cells) : Nat := if cells.mailbox.notify.registered = none then 4 else 0

/-- How many accesses thread `i` of `n` still makes, those of the receiver it will
    wake included. -/
def rank (n : Nat) (cells : Cells) (i : Nat) : Pc → Nat
  | .idle => 0
  | .acquire _ => 6 * n + 9
  | .increment _ => 6 * n + 8
  | .push .. => 6 * n + 7
  | .threshold _ => 6 * n + 2
  | .notify => 6 * n + 1
  | .enable broken => if broken then token cells i + 2 else token cells i + 3
  | .pop none => 1
  | .pop (some broken) => if broken then token cells i + 3 else token cells i + open_ cells + 2
  | .decrement => 4
  | .release => 3
  | .load_size => 2
  | .store_flag _ => 1
  | .wait _ => token cells i + open_ cells + 1
  | .park _ => token cells i + open_ cells

/-- A stored message may cost the four accesses after its pop. -/
def left (s : Threads) : Nat :=
  4 * s.cells.mailbox.queue.length + (s.pcs.mapIdx (rank s.pcs.length s.cells)).sum

/-- What an access may add to the rank of every thread. -/
def wakes : Pc → Nat
  | .notify => 6
  | _ => 0

/-- No other thread gains by the change of the cells. -/
structure Quiet (i : Nat) (cells cells' : Cells) : Prop where
  gate : cells'.mailbox.notify.registered = none → cells.mailbox.notify.registered = none
  tokens : ∀ k, k ≠ i → k ∈ cells'.unparked → k ∈ cells.unparked

theorem token_le (cells : Cells) (i : Nat) : token cells i ≤ 2 := by
  unfold token
  split <;> omega

theorem open_le (cells : Cells) : open_ cells ≤ 4 := by
  unfold open_
  split <;> omega

theorem rank_le (n : Nat) (cells cells' : Cells) (i : Nat) (pc : Pc) : rank n cells' i pc ≤ rank n cells i pc + 6 := by
  have tokens := token_le cells' i
  have gate := open_le cells'
  cases pc with
  | enable broken => cases broken <;> simp only [rank,Bool.false_eq_true,if_false,if_true] <;> omega
  | pop looping =>
    cases looping with
    | none => exact Nat.le_add_right _ _
    | some broken => cases broken <;> simp only [rank,Bool.false_eq_true,if_false,if_true] <;> omega
  | wait broken | park broken =>
    simp only [rank]
    omega
  | _ => exact Nat.le_add_right _ _

theorem rank_quiet {n i k : Nat} {cells cells' : Cells} (quiet : Quiet i cells cells') (other : k ≠ i) (pc : Pc) :
    rank n cells' k pc ≤ rank n cells k pc := by
  have tokens : token cells' k ≤ token cells k := by
    unfold token
    by_cases held : k ∈ cells'.unparked
    · rw [if_pos held,if_pos (quiet.tokens k other held)]
    · rw [if_neg held]
      exact Nat.zero_le _
  have gate : open_ cells' ≤ open_ cells := by
    unfold open_
    by_cases free : cells'.mailbox.notify.registered = none
    · rw [if_pos free,if_pos (quiet.gate free)]
    · rw [if_neg free]
      exact Nat.zero_le _
  cases pc with
  | enable broken => cases broken <;> simp only [rank,Bool.false_eq_true,if_false,if_true] <;> omega
  | pop looping =>
    cases looping with
    | none => exact Nat.le_refl _
    | some broken => cases broken <;> simp only [rank,Bool.false_eq_true,if_false,if_true] <;> omega
  | wait broken | park broken =>
    simp only [rank]
    omega
  | _ => exact Nat.le_refl _

/-- The accesses to the size counter change nothing else. -/
theorem advance_size {pc pc' : Pc} {cells cells' : Cells} {i : Nat} {call : LoomCall}
    (stepped : pc.advance cells i call = some (cells',pc')) (counts : pc = .decrement ∨ ∃ message, pc = .increment message) :
    ∃ size, cells' = { cells with mailbox := { cells.mailbox with size } } ∧
      (pc = .decrement → pc' = .release) ∧ ∀ message, pc = .increment message → ∃ size, pc' = .push message size := by
  rcases counts with rfl | ⟨message,rfl⟩
  · cases stepped
    exact ⟨_,rfl,(fun _ => rfl),(fun _ other => by cases other)⟩
  · cases stepped
    exact ⟨_,rfl,(fun other => by cases other),(fun _ same => by cases same; exact ⟨_,rfl⟩)⟩

/-- Every access of a call makes what is left smaller. -/
theorem advance_fewer {n : Nat} {pc pc' : Pc} {cells cells' : Cells} {i : Nat} {call : LoomCall}
    (stepped : pc.advance cells i call = some (cells',pc')) (begun : pc ≠ .idle) :
    4 * cells'.mailbox.queue.length + rank n cells' i pc' + wakes pc * n <
      4 * cells.mailbox.queue.length + rank n cells i pc := by
  have tokens := token_le cells i
  have gate := open_le cells
  cases pc with
  | idle => exact absurd rfl begun
  | acquire message =>
    simp only [Pc.advance] at stepped
    split at stepped <;> cases stepped <;> simp [rank,wakes]
  | increment message =>
    obtain ⟨size,rfl,-,pushes⟩ := advance_size stepped (.inr ⟨message,rfl⟩)
    obtain ⟨size',rfl⟩ := pushes message rfl
    simp [rank,wakes]
  | push message size =>
    cases stepped
    simp [rank,wakes]
    omega
  | threshold size =>
    simp only [Pc.advance] at stepped
    split at stepped <;> cases stepped <;> simp [rank,wakes]
  | notify =>
    cases stepped
    have same : cells.notify_waiters.mailbox.queue = cells.mailbox.queue := by
      unfold Cells.notify_waiters
      split <;> rfl
    rw [same]
    simp [rank,wakes]
  | enable broken =>
    cases stepped
    have kept : token { cells with mailbox := { cells.mailbox with notify := { registered := some i } } } i = token cells i := rfl
    have closed : open_ { cells with mailbox := { cells.mailbox with notify := { registered := some i } } } = 0 := rfl
    cases broken <;> simp [rank,wakes,kept,closed]
  | pop looping =>
    simp only [Pc.advance] at stepped
    split at stepped
    · next first rest queue =>
      cases stepped
      rw [queue,List.length_cons]
      cases looping with
      | none => simp [rank,wakes]; omega
      | some broken => cases broken <;> simp [rank,wakes] <;> omega
    · cases stepped
      cases looping with
      | none => simp [rank,wakes]
      | some broken => cases broken <;> simp [rank,wakes]
  | decrement =>
    obtain ⟨size,rfl,releases,-⟩ := advance_size stepped (.inl rfl)
    rw [releases rfl]
    simp [rank,wakes]
  | release | load_size =>
    cases stepped
    simp [rank,wakes]
  | store_flag size =>
    simp only [Pc.advance] at stepped
    split at stepped <;> cases stepped <;> simp [rank,wakes]
  | wait broken =>
    simp only [Pc.advance,Option.some.injEq,Prod.mk.injEq] at stepped
    obtain ⟨rfl,rfl⟩ := stepped
    cases registered : cells.mailbox.notify.registered with
    | some k => simp [rank,wakes]
    | none => cases broken <;> simp [rank,wakes,open_,registered]
  | park broken =>
    simp only [Pc.advance] at stepped
    split at stepped
    · next woken =>
      cases stepped
      simp [rank,wakes,token,open_,woken]
      omega
    · cases stepped

/-- Only a notification gives the others something to do. -/
theorem advance_quiet {pc pc' : Pc} {cells cells' : Cells} {i : Nat} {call : LoomCall}
    (stepped : pc.advance cells i call = some (cells',pc')) (silent : pc ≠ .notify) : Quiet i cells cells' := by
  have same : Quiet i cells cells := ⟨id,fun _ _ held => held⟩
  cases pc with
  | notify => exact absurd rfl silent
  | idle | load_size | wait =>
    cases stepped
    exact same
  | increment message =>
    obtain ⟨size,rfl,-⟩ := advance_size stepped (.inr ⟨message,rfl⟩)
    exact ⟨same.gate,same.tokens⟩
  | decrement =>
    obtain ⟨size,rfl,-⟩ := advance_size stepped (.inl rfl)
    exact ⟨same.gate,same.tokens⟩
  | push | release =>
    cases stepped
    exact ⟨same.gate,same.tokens⟩
  | enable broken =>
    cases stepped
    exact ⟨(fun free => by cases free),same.tokens⟩
  | acquire | threshold | store_flag | pop =>
    simp only [Pc.advance] at stepped
    split at stepped <;> cases stepped
    · exact ⟨same.gate,same.tokens⟩
    · exact ⟨same.gate,same.tokens⟩
  | park broken =>
    simp only [Pc.advance] at stepped
    split at stepped <;> cases stepped
    exact ⟨id,fun k other held => (List.mem_filter.mp held).1⟩

theorem step_fewer {s s' : Threads} {label : Nat × LoomCall} (goes : GoesOn s label) (stepped : s.step label = some s') :
    left s' < left s := by
  obtain ⟨pc,found,rest⟩ := Option.bind_eq_some_iff.mp stepped
  obtain ⟨⟨cells,pc'⟩,advanced,same⟩ := Option.bind_eq_some_iff.mp rest
  cases same
  have begun : pc ≠ .idle := by
    rintro rfl
    exact goes found
  have own := advance_fewer (n := s.pcs.length) advanced begun
  have all := ranks_set (rank s.pcs.length s.cells) (rank s.pcs.length cells) (wakes pc) found pc' (by
    intro k x other
    by_cases notifies : pc = .notify
    · subst notifies
      exact rank_le ..
    · exact (rank_quiet (advance_quiet advanced notifies) other x).trans (Nat.le_add_right _ _))
  simp only [left,List.length_set]
  omega

/-! ## Tokens -/

/-- A parked thread that nothing is registered for can be woken. -/
def Tokened (s : Threads) : Prop :=
  ∀ (i : Nat) broken, s.pcs[i]? = some (.park broken) → s.cells.mailbox.notify.registered = none → i ∈ s.cells.unparked

/-- Who parks is registered, and a notification leaves a token to whom it
    unregisters. -/
theorem advance_token {pc pc' : Pc} {cells cells' : Cells} {i : Nat} {call : LoomCall}
    (stepped : pc.advance cells i call = some (cells',pc')) :
    (∀ broken, pc' = .park broken → cells'.mailbox.notify.registered ≠ none) ∧
      (receives pc = false → ∀ k, (∀ j, cells.mailbox.notify.registered = some j → j = k) →
        (cells.mailbox.notify.registered = none → k ∈ cells.unparked) →
        cells'.mailbox.notify.registered = none → k ∈ cells'.unparked) := by
  cases pc with
  | idle =>
    cases stepped
    cases call <;> exact ⟨(fun _ parked => by cases parked),(fun _ _ _ held => held)⟩
  | increment message =>
    obtain ⟨size,rfl,-,pushes⟩ := advance_size stepped (.inr ⟨message,rfl⟩)
    obtain ⟨size',rfl⟩ := pushes message rfl
    exact ⟨(fun _ parked => by cases parked),(fun _ _ _ held => held)⟩
  | decrement =>
    obtain ⟨size,rfl,releases,-⟩ := advance_size stepped (.inl rfl)
    rw [releases rfl]
    exact ⟨(fun _ parked => by cases parked),(fun _ _ _ held => held)⟩
  | push | release | load_size =>
    cases stepped
    exact ⟨(fun _ parked => by cases parked),(fun _ _ _ held => held)⟩
  | acquire | threshold | store_flag =>
    simp only [Pc.advance] at stepped
    split at stepped <;> cases stepped
    · exact ⟨(fun _ parked => by cases parked),(fun _ _ _ held => held)⟩
    · exact ⟨(fun _ parked => by cases parked),(fun _ _ _ held => held)⟩
  | notify =>
    cases stepped
    refine ⟨(fun _ parked => by cases parked),fun _ k single held _ => ?_⟩
    unfold Cells.notify_waiters
    split
    · next waiter registered =>
      rw [single waiter registered]
      exact List.mem_cons_self
    · next free => exact held free
  | enable broken =>
    cases stepped
    exact ⟨(fun _ _ free => by cases free),(fun away => by cases away)⟩
  | pop looping =>
    simp only [Pc.advance] at stepped
    split at stepped
    · cases stepped
      exact ⟨(fun _ parked => by cases parked),(fun _ _ _ held => held)⟩
    · cases stepped
      refine ⟨fun broken parked => ?_,fun _ _ _ held => held⟩
      split at parked <;> cases parked
  | wait broken =>
    simp only [Pc.advance,Option.some.injEq,Prod.mk.injEq] at stepped
    obtain ⟨rfl,rfl⟩ := stepped
    refine ⟨fun _ parked free => ?_,(fun away => by cases away)⟩
    simp only [free,Option.isSome_none,Bool.false_eq_true,if_false] at parked
    split at parked <;> cases parked
  | park broken =>
    simp only [Pc.advance] at stepped
    split at stepped <;> cases stepped
    exact ⟨(fun _ parked => by cases parked),(fun away => by cases away)⟩

section
variable {capacity n r : Nat} (fits : capacity < 2 ^ 64)
include fits

/-- What the mailbox knows about its double. -/
theorem related_reach {d : Threads} (reached : Reach Threads.step (double numbered r).ok (.init capacity n) d) :
    ∃ s, Reachable mailbox.Threads.step (.init ⟨0⟩ (.with_threshold capacity true default_threshold) n) s ∧
      Related (.with_threshold capacity true default_threshold) numbered r s d := by
  obtain ⟨events,runs⟩ := runs_of_reach (S := double numbered r) reached
  obtain ⟨s,answered,related⟩ := (mailbox_simulates (r := r) (fun _ => rfl) fits).runs
    (related_init ⟨0⟩ numbered r capacity n true) runs
  exact ⟨s,answered.reach.mono (fun _ _ _ => trivial),related⟩

theorem tokened_reach {d : Threads} (reached : Reach Threads.step (double numbered r).ok (.init capacity n) d) :
    Tokened d := by
  induction reached with
  | start =>
    intro i broken found
    cases List.eq_of_mem_replicate (List.mem_of_getElem? found)
  | @next d d' label before allowed stepped ih =>
    obtain ⟨s,-,related⟩ := related_reach fits before
    obtain ⟨pc,found,rest⟩ := Option.bind_eq_some_iff.mp stepped
    obtain ⟨⟨cells,pc'⟩,advanced,same⟩ := Option.bind_eq_some_iff.mp rest
    cases same
    obtain ⟨registered,kept⟩ := advance_token advanced
    intro k broken here free
    by_cases mine : label.1 = k
    · subst mine
      have latest : (d.pcs.set label.1 pc')[label.1]? = some pc' :=
        List.getElem?_set_self (List.getElem?_eq_some_iff.mp found).1
      have parked : pc' = .park broken := Option.some.inj (latest.symm.trans here)
      exact absurd free (registered broken parked)
    · have old : d.pcs[k]? = some (.park broken) := (List.getElem?_set_ne mine).symm.trans here
      have receiver := related.receiver k _ old rfl
      refine kept ?_ k (fun j registered => (related.single j registered).trans receiver.symm) (ih k broken old) free
      by_contra waits
      exact mine ((related.receiver label.1 pc found (by simpa using waits)).trans receiver.symm)

omit fits in
/-- A thread that is stuck is between two calls, or parked without a token. -/
theorem stuck_parked {d : Threads} (stuck : Stuck Threads.step GoesOn d) {i : Nat} {pc : Pc} (found : d.pcs[i]? = some pc) :
    pc = .idle ∨ ∃ broken, pc = .park broken ∧ i ∉ d.cells.unparked := by
  by_cases begun : pc = .idle
  · exact .inl begun
  · have refused : pc.advance d.cells i .try_recv = none := by
      have goes : GoesOn d (i,.try_recv) := by
        intro idle
        rw [found] at idle
        cases idle
        exact begun rfl
      have ended := stuck (i,.try_recv) goes
      rw [Threads.step,found] at ended
      cases advanced : pc.advance d.cells i .try_recv with
      | none => rfl
      | some next =>
        rw [Option.bind_eq_bind,Option.bind_some,advanced] at ended
        cases ended
    cases pc with
    | idle => exact absurd rfl begun
    | park broken =>
      simp only [Pc.advance] at refused
      split at refused
      · cases refused
      · next asleep => exact .inr ⟨broken,rfl,asleep⟩
    | acquire | threshold | pop | store_flag =>
      simp only [Pc.advance] at refused
      split at refused <;> cases refused
    | _ => cases refused

theorem stuck_rests {d : Threads} (reached : Reach Threads.step (double numbered r).ok (.init capacity n) d)
    (stuck : Stuck Threads.step GoesOn d) : Rests d := by
  obtain ⟨s,reached',related⟩ := related_reach fits reached
  have tokened := tokened_reach fits reached
  -- The mailbox is stuck in the same places.
  have places : ∀ (i : Nat) pc, s.pcs[i]? = some pc →
      (pc = .idle ∧ d.pcs[i]? = some .idle) ∨ (pc = .park ∧ i ∈ s.cells.waiters ∧ d.pcs[i]? = some (.park false)) := by
    intro i pc found
    rcases related.place i with ⟨none,-⟩ | ⟨pc₀,pc',found₀,found',same⟩
    · rw [found] at none
      cases none
    · rw [found] at found₀
      cases found₀
      rcases stuck_parked stuck found' with rfl | ⟨broken,rfl,asleep⟩
      · cases same
        exact .inl ⟨rfl,found'⟩
      · cases same
        refine .inr ⟨rfl,?_,found'⟩
        have known : i ∈ s.cells.waiters ↔ d.cells.mailbox.notify.registered = some i := related.registered i .park found rfl
        rw [known]
        cases registered : d.cells.mailbox.notify.registered with
        | none => exact absurd (tokened i false found' registered) asleep
        | some k => rw [related.single k registered,related.receiver i _ found' rfl]
  have halted : Stuck mailbox.Threads.step Completion.Continues s := by
    intro label goes
    cases found : s.pcs[label.1]? with
    | none => simp only [mailbox.Threads.step,found,Option.bind_eq_bind,Option.bind_none]
    | some pc =>
      rcases places label.1 pc found with ⟨rfl,-⟩ | ⟨rfl,waiting,-⟩
      · exact absurd found goes
      · simp only [mailbox.Threads.step,found,Option.bind_eq_bind,Option.bind_some,mailbox.Pc.advance,waiting,if_true,
          Option.bind_none]
  have sound := Completion.sound_reach fits reached'
  have settled := Completion.stuck_settled sound halted
  have accounted := sound.accounted
  have agree := related.agree
  have none : ∀ count : mailbox.Pc → Nat, count .idle = 0 → count .park = 0 → (s.pcs.map count).sum = 0 := by
    intro count idle park
    refine Counting.sum_map_eq_zero count s.pcs (fun pc member => ?_)
    obtain ⟨i,found⟩ := List.getElem?_of_mem member
    rcases places i pc found with ⟨rfl,-⟩ | ⟨rfl,-⟩
    · exact idle
    · exact park
  have length : MailboxAccounting.queued s.cells.mb = d.cells.mailbox.queue.length := by
    rw [MailboxAccounting.queued,agree.critical,agree.queue,List.length_map,List.length_nil,Nat.add_zero]
  have size := accounted.size
  have permits := accounted.permits
  rw [none _ rfl rfl,none _ rfl rfl,agree.size,length] at size
  rw [none _ rfl rfl,none _ rfl rfl,agree.permits,length,agree.capacity] at permits
  refine ⟨?_,by omega,by omega,?_⟩
  · intro pc' member
    obtain ⟨i,found'⟩ := List.getElem?_of_mem member
    rcases related.place i with ⟨-,none⟩ | ⟨pc,pc₀,found,found₀,-⟩
    · rw [found'] at none
      cases none
    · rcases places i pc found with ⟨-,there⟩ | ⟨-,-,there⟩
      · rw [found'] at there
        exact .inl (Option.some.inj there)
      · rw [found'] at there
        exact .inr (Option.some.inj there)
  · intro member
    obtain ⟨i,found'⟩ := List.getElem?_of_mem member
    rcases related.place i with ⟨-,none⟩ | ⟨pc,pc₀,found,found₀,same⟩
    · rw [found'] at none
      cases none
    · rw [found'] at found₀
      cases found₀
      cases same
      have empty := settled.empty (List.mem_of_getElem? found)
      rw [MailboxCalls.contents,agree.critical,agree.queue,List.nil_append,List.map_eq_nil_iff] at empty
      rw [empty,List.length_nil] at size permits
      simp only [LoomMailbox.is_fully_drained,empty,List.isEmpty_nil,Bool.and_true,Bool.and_eq_true,beq_iff_eq]
      omega

/-- In every order of accesses the calls on a double end, when no thread begins
    another one. The only deadlock that is left is the receiver beside a mailbox
    that is fully drained. -/
theorem handshake_ends {d : Threads} (reached : Reach Threads.step (double numbered r).ok (.init capacity n) d) :
    ComesTo Threads.step GoesOn Rests d := by
  refine comesTo_of_measure (fun d => Reach Threads.step (double numbered r).ok (.init capacity n) d) left ?_ ?_ reached
  · intro d label d' before goes stepped
    exact ⟨.next before (fun idle => absurd idle goes) stepped,step_fewer goes stepped⟩
  · intro d before stuck
    exact stuck_rests fits before stuck

end

/-- The two senders and the receiver of the crate's model, all underway. -/
def drains : List (Nat × LoomCall) := [(0,.try_send 1),(1,.try_send 2),(2,.recv),(2,.recv),(0,.try_send 1)]

theorem handshake_ends_drains : ∃ d, Reach Threads.step (double numbered 2).ok (.init 2 3) d ∧
    d.pcs.map (fun pc => decide (pc = .idle)) = [false,false,false] ∧ ComesTo Threads.step GoesOn Rests d := by
  have seen : (run Threads.step (.init 2 3) drains).map (fun d => d.pcs.map (fun pc => decide (pc = .idle))) =
      some [false,false,false] := by decide +kernel
  obtain ⟨d,runs,same⟩ := Option.map_eq_some_iff.mp seen
  have reached : Reach Threads.step (double numbered 2).ok (.init 2 3) d := by
    refine reach_run .start (fun label member s _ => ?_) runs
    have serves : ∀ label ∈ drains, Serves 2 label.1 label.2 := by
      unfold drains Serves
      simp
    exact serves label member
  exact ⟨d,reached,same,handshake_ends (by decide) reached⟩

/-- The loop that looks before it registers. -/
def lost : List (Nat × LoomCall) :=
  List.replicate 2 (1,.broken_recv) ++ List.replicate 6 (0,.try_send 1) ++ List.replicate 2 (1,.broken_recv)

/-- It parks beside a message, and nobody is left to wake it. -/
theorem broken_recv_loses_wakeup : ∃ d, Reachable Threads.step (.init 2 2) d ∧ Stuck Threads.step GoesOn d ∧
    d.pcs = [.idle,.park true] ∧ d.cells.mailbox.queue = [1] := by
  have seen : (run Threads.step (.init 2 2) lost).map (fun d => (d.pcs,d.cells.unparked,d.cells.mailbox.queue)) =
      some ([.idle,.park true],[],[1]) := by decide +kernel
  obtain ⟨d,runs,same⟩ := Option.map_eq_some_iff.mp seen
  simp only [Prod.mk.injEq] at same
  obtain ⟨pcs,tokens,queue⟩ := same
  refine ⟨d,reachable_run .start runs,?_,pcs,queue⟩
  rintro ⟨i,call⟩ goes
  unfold GoesOn at goes
  rw [pcs] at goes
  cases i with
  | zero => exact absurd rfl goes
  | succ i =>
    cases i with
    | zero => simp [Threads.step,pcs,Pc.advance,tokens]
    | succ i => simp [Threads.step,pcs]

end ActorKit.Handshake
