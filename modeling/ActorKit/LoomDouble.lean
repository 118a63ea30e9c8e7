import ActorKit.LoomMailbox
import ActorKit.Wakeups
import ActorKit.Lib.Simulation

/-!
# The double and the mailbox

What the threads of a double show, those of a mailbox show as well, and the other
way round: the same calls, the same answers and the same counters, in every order
of accesses. So the exhaustive checks of the double are about the mailbox, as long
as one thread alone receives, and nothing is sent as critical, waits for room or
clears the queues.
-/

namespace ActorKit.LoomDouble
open ActorKit.mailbox ActorKit.MailboxAccounting ActorKit.MailboxCalls ActorKit.Transition ActorKit.Simulation
  ActorKit.Wakeups
open ActorKit.loom_mailbox (LoomMailbox LoomCall)

/-- What a caller sees, where it happens: a send at its push, a receive at its
    pop. -/
inductive Event where
  | called (i : Nat) (call : MailboxCall)
  | refused (i : Nat) (message : Message)
  | sent (i : Nat) (message : Message)
  | received (i : Nat) (message : Message)
  | nothing (i : Nat)
deriving DecidableEq, Repr

/-- The call that the double stands for; `message` is what a number stands for. -/
def lift (message : Nat → Message) : LoomCall → MailboxCall
  | .try_send m => .try_send (message m)
  | .try_recv => .try_recv
  | .recv | .broken_recv => .recv

/-- The calls that are compared: only thread `r` waits for messages. -/
def Serves (r i : Nat) : LoomCall → Prop
  | .try_send _ | .try_recv => True
  | .recv => i = r
  | .broken_recv => False

/-- What the next access to a mailbox shows. -/
def heard (mb : Mailbox) (i : Nat) (call : MailboxCall) : mailbox.Pc → List Event
  | .idle => [.called i call]
  | .acquire _ message => if mb.permits = 0 then [.refused i message] else []
  | .push message _ => if (mb.push message).isSome then [.sent i message] else []
  | .pop_critical _ => match (if mb.config.priority_queue then mb.pop_critical else none) with
    | some (message,_) => [.received i message]
    | none => []
  | .pop_queue looping => match mb.pop_queue with
    | some (message,_) => [.received i message]
    | none => if looping then [] else [.nothing i]
  | _ => []

/-- What the next access to a double shows. -/
def heardDouble (message : Nat → Message) (mb : LoomMailbox) (i : Nat) (call : LoomCall) : loom_mailbox.Pc → List Event
  | .idle => [.called i (lift message call)]
  | .acquire m => if mb.permits = 0 then [.refused i (message m)] else []
  | .push m _ => [.sent i (message m)]
  | .pop looping => match mb.queue with
    | m :: _ => [.received i (message m)]
    | [] => if looping.isSome then [] else [.nothing i]
  | _ => []

/-- The threads of a mailbox that make the compared calls. -/
def threads (message : Nat → Message) (r : Nat) : Shown mailbox.Threads (Nat × MailboxCall) Event where
  step := mailbox.Threads.step
  ok s label := s.pcs[label.1]? = some .idle → ∃ call, label.2 = lift message call ∧ Serves r label.1 call
  shows s label := (s.pcs[label.1]?).elim [] (heard s.cells.mb label.1 label.2)

/-- The threads of the double. -/
def double (message : Nat → Message) (r : Nat) : Shown loom_mailbox.Threads (Nat × LoomCall) Event where
  step := loom_mailbox.Threads.step
  ok s label := s.pcs[label.1]? = some .idle → Serves r label.1 label.2
  shows s label := (s.pcs[label.1]?).elim [] (heardDouble message s.cells.mailbox label.1 label.2)

/-- The counters and the stored messages. -/
structure Account where
  stored : List Message
  size : Nat
  permits : Nat
  backpressure : Bool
deriving DecidableEq, Repr

def account (s : mailbox.Threads) : Account :=
  { stored := contents s.cells.mb, size := s.cells.mb.size, permits := s.cells.mb.permits, backpressure := s.cells.mb.backpressure }

def accountDouble (message : Nat → Message) (s : loom_mailbox.Threads) : Account :=
  let mb := s.cells.mailbox
  { stored := mb.queue.map message, size := mb.size, permits := mb.permits, backpressure := mb.backpressure }

/-! ## Related states -/

/-- The places of a thread in the two programs. A parked receiver of the mailbox
    is at either access of the double's `wait`. -/
inductive Same (message : Nat → Message) : mailbox.Pc → loom_mailbox.Pc → Prop where
  | idle : Same message .idle .idle
  | acquire (m : Nat) : Same message (.acquire false (message m)) (.acquire m)
  | increment (m : Nat) : Same message (.increment (message m)) (.increment m)
  | push (m size : Nat) : Same message (.push (message m) size) (.push m size)
  | threshold (size : Nat) : Same message (.threshold size) (.threshold size)
  | notify : Same message .notify .notify
  | register : Same message .register (.enable false)
  | pop_critical (looping : Bool) : Same message (.pop_critical looping) (.pop (if looping then some false else none))
  | pop_queue (looping : Bool) : Same message (.pop_queue looping) (.pop (if looping then some false else none))
  | decrement (looping : Bool) : Same message (.decrement looping) .decrement
  | release (looping : Bool) : Same message (.release looping) .release
  | load_size (looping : Bool) : Same message (.load_size looping) .load_size
  | store_flag (looping : Bool) (size : Nat) : Same message (.store_flag looping size) (.store_flag size)
  | wait : Same message .park (.wait false)
  | park : Same message .park (.park false)

/-- The cells hold the same. -/
structure Agree (config : MailboxConfig) (message : Nat → Message) (mb : Mailbox) (mb' : LoomMailbox) : Prop where
  sameConfig : mb.config = config
  critical : mb.critical_queue = []
  queue : mb.queue = mb'.queue.map message
  size : mb.size = mb'.size
  permits : mb.permits = mb'.permits
  backpressure : mb.backpressure = mb'.backpressure
  count : config.backpressure_count = mb'.backpressure_count
  capacity : config.capacity = mb'.capacity

/-- The thread waits for messages. -/
def receives : loom_mailbox.Pc → Bool
  | .enable _ | .wait _ | .park _ => true
  | .pop looping => looping.isSome
  | _ => false

def parks : loom_mailbox.Pc → Bool
  | .park _ => true
  | _ => false

/-- A receiver that a notification concerns. -/
def listens : mailbox.Pc → Bool
  | .pop_critical looping | .pop_queue looping => looping
  | .park => true
  | _ => false

/-- Thread `i` is registered with both or with none. -/
def Registered (cells : mailbox.Cells) (cells' : loom_mailbox.Cells) (i : Nat) : Prop :=
  i ∈ cells.waiters ↔ cells'.mailbox.notify.registered = some i

structure Related (config : MailboxConfig) (message : Nat → Message) (r : Nat) (s : mailbox.Threads)
    (d : loom_mailbox.Threads) : Prop where
  accounted : Accounted config.capacity s
  agree : Agree config message s.cells.mb d.cells.mailbox
  same : ∀ i : Nat, Option.Rel (Same message) s.pcs[i]? d.pcs[i]?
  receiver : ∀ (i : Nat) pc, d.pcs[i]? = some pc → receives pc = true → i = r
  registered : ∀ (i : Nat) pc, s.pcs[i]? = some pc → listens pc = true → Registered s.cells d.cells i
  single : ∀ i, d.cells.mailbox.notify.registered = some i → i = r

/-- What one thread's step in both programs leaves related. -/
structure Joint (config : MailboxConfig) (message : Nat → Message) (r i : Nat) (pc' : loom_mailbox.Pc)
    (cells : mailbox.Cells) (cells' : loom_mailbox.Cells) (cells₁ : mailbox.Cells) (pc₁ : mailbox.Pc)
    (cells₁' : loom_mailbox.Cells) (pc₁' : loom_mailbox.Pc) : Prop where
  agree : Agree config message cells₁.mb cells₁'.mailbox
  same : Same message pc₁ pc₁'
  own : listens pc₁ = true → Registered cells₁ cells₁' i
  others : receives pc' = false → ∀ k, k ≠ i → Registered cells cells' k → Registered cells₁ cells₁' k
  receiver : receives pc₁' = true → receives pc' = true ∨ i = r
  single : ∀ k, cells₁'.mailbox.notify.registered = some k →
    cells'.mailbox.notify.registered = some k ∨ k = i ∧ receives pc' = true

/-! ## One access -/

section
variable {config : MailboxConfig} {message : Nat → Message} {r i : Nat} {cells cells₁ : mailbox.Cells}
  {cells' cells₁' : loom_mailbox.Cells} {pc pc₁ : mailbox.Pc} {pc' pc₁' : loom_mailbox.Pc}

/-- A step of either that leaves the registrations alone. -/
theorem Joint.quiet (agree : Agree config message cells₁.mb cells₁'.mailbox) (same : Same message pc₁ pc₁')
    (waiters : cells₁.waiters = cells.waiters) (gate : cells₁'.mailbox.notify = cells'.mailbox.notify)
    (own : listens pc₁ = true → Registered cells cells' i)
    (receiver : receives pc₁' = true → receives pc' = true ∨ i = r) :
    Joint config message r i pc' cells cells' cells₁ pc₁ cells₁' pc₁' := by
  have kept : ∀ k, Registered cells cells' k → Registered cells₁ cells₁' k := by
    intro k before
    unfold Registered at before ⊢
    rw [waiters,gate]
    exact before
  refine ⟨agree,same,fun listening => kept i (own listening),fun _ k _ before => kept k before,receiver,?_⟩
  intro k registered
  rw [gate] at registered
  exact .inl registered

/-- A step to a place where no receiver waits. -/
theorem Joint.away (agree : Agree config message cells₁.mb cells₁'.mailbox) (same : Same message pc₁ pc₁')
    (waiters : cells₁.waiters = cells.waiters) (gate : cells₁'.mailbox.notify = cells'.mailbox.notify)
    (deaf : listens pc₁ = false) (gone : receives pc₁' = false) :
    Joint config message r i pc' cells cells' cells₁ pc₁ cells₁' pc₁' := by
  refine .quiet agree same waiters gate (fun listening => ?_) (fun waits => ?_)
  · rw [deaf] at listening
    cases listening
  · rw [gone] at waits
    cases waits

/-- A push that is not refused, of a message that is not critical. -/
theorem push_ordinary (plain : ∀ m, urgent config (message m) = false) (agree : Agree config message cells.mb cells'.mailbox)
    (m : Nat) (room : queued cells.mb < cells.mb.config.capacity) :
    cells.mb.push (message m) = some { cells.mb with queue := cells.mb.queue ++ [message m] } := by
  have ordinary : (cells.mb.config.priority_queue && (message m).priority == .Critical) = false := by
    rw [agree.sameConfig]
    exact plain m
  unfold queued at room
  unfold Mailbox.push
  rw [ordinary,if_neg Bool.false_ne_true,if_pos (by omega)]

/-- What a change of the counter leaves alone. -/
theorem write_waiters (cells : mailbox.Cells) (mb : Mailbox) : ({ cells with mb } : mailbox.Cells).waiters = cells.waiters := rfl

theorem size_notify (mb : LoomMailbox) (size : Nat) : ({ mb with size } : LoomMailbox).notify = mb.notify := rfl

theorem Agree.add_size {mb : Mailbox} {mb' : LoomMailbox} (agree : Agree config message mb mb') (n : Nat) :
    Agree config message (mb.add_size n) { mb' with size := fetch_add mb'.size n } :=
  ⟨agree.sameConfig,agree.critical,agree.queue,congrArg (fetch_add · n) agree.size,agree.permits,agree.backpressure,agree.count,
    agree.capacity⟩

theorem Agree.sub_size {mb : Mailbox} {mb' : LoomMailbox} (agree : Agree config message mb mb') (n : Nat) :
    Agree config message (mb.sub_size n) { mb' with size := fetch_sub mb'.size n } :=
  ⟨agree.sameConfig,agree.critical,agree.queue,congrArg (fetch_sub · n) agree.size,agree.permits,agree.backpressure,agree.count,
    agree.capacity⟩

/-- Nothing is stored as critical. -/
theorem no_critical (agree : Agree config message cells.mb cells'.mailbox) :
    (if cells.mb.config.priority_queue then cells.mb.pop_critical else none) = none := by
  unfold Mailbox.pop_critical
  rw [agree.critical]
  split <;> rfl

/-- The double answers an access to the mailbox with one of its own, or with
    none. -/
theorem double_answers (plain : ∀ m, urgent config (message m) = false) {call : MailboxCall} {call' : LoomCall}
    (lifted : pc = .idle → call = lift message call' ∧ Serves r i call') (may : Local pc cells.mb)
    (agree : Agree config message cells.mb cells'.mailbox) (same : Same message pc pc')
    (own : listens pc = true → Registered cells cells' i)
    (receiver : receives pc' = true → i = r) (single : ∀ k, cells'.mailbox.notify.registered = some k → k = r)
    (awake : parks pc' = false) (stepped : pc.advance cells i call = some (cells₁,pc₁)) :
    ∃ cells₁' pc₁', (pc'.advance cells' i call' = some (cells₁',pc₁') ∧
          heardDouble message cells'.mailbox i call' pc' = heard cells.mb i call pc ∨
        (∃ looping, pc = .pop_critical looping) ∧ cells₁' = cells' ∧ pc₁' = pc' ∧ heard cells.mb i call pc = []) ∧
      parks pc₁' = false ∧
      Joint config message r i pc' cells cells' cells₁ pc₁ cells₁' pc₁' := by
  cases same with
  | idle =>
    cases stepped
    obtain ⟨rfl,serves⟩ := lifted rfl
    refine ⟨cells',.begin call',.inl ⟨rfl,rfl⟩,?_⟩
    cases call' with
    | try_send m => exact ⟨rfl,.away agree (.acquire m) rfl rfl rfl rfl⟩
    | try_recv => exact ⟨rfl,.away agree (.pop_critical false) rfl rfl rfl rfl⟩
    | recv => exact ⟨rfl,.quiet agree .register rfl rfl (fun listening => by cases listening) (fun _ => .inr serves)⟩
    | broken_recv => exact serves.elim
  | acquire m =>
    have permits := agree.permits
    simp only [mailbox.Pc.advance,Mailbox.try_acquire] at stepped
    by_cases none : cells.mb.permits = 0
    · rw [if_pos none] at stepped
      cases stepped
      refine ⟨cells',.idle,.inl ⟨?_,?_⟩,rfl,.away agree .idle rfl rfl rfl rfl⟩
      · rw [loom_mailbox.Pc.advance,if_pos (permits ▸ none)]
      · rw [heard,heardDouble,if_pos none,if_pos (permits ▸ none)]
    · rw [if_neg none] at stepped
      cases stepped
      refine ⟨{ cells' with mailbox := { cells'.mailbox with permits := cells'.mailbox.permits - 1 } },.increment m,
        .inl ⟨?_,?_⟩,rfl,.away ?_ (.increment m) rfl rfl rfl rfl⟩
      · rw [loom_mailbox.Pc.advance,if_neg (permits ▸ none)]
      · rw [heard,heardDouble,if_neg none,if_neg (permits ▸ none)]
      · exact { agree with permits := by rw [permits] }
  | increment m =>
    cases stepped
    rw [agree.size]
    exact ⟨_,.push m (fetch_add cells'.mailbox.size 1),.inl ⟨rfl,rfl⟩,rfl,
      .away (agree.add_size 1) (.push m _) rfl rfl rfl rfl⟩
  | push m size =>
    have pushed := push_ordinary plain agree m (may.room (by simp [held]))
    simp only [mailbox.Pc.advance,pushed,Option.some.injEq,Prod.mk.injEq] at stepped
    obtain ⟨rfl,rfl⟩ := stepped
    refine ⟨_,.threshold size,.inl ⟨rfl,?_⟩,rfl,.away ?_ (.threshold size) rfl rfl rfl rfl⟩
    · simp [heard,heardDouble,pushed]
    · exact { agree with queue := by simp [agree.queue] }
  | threshold size =>
    cases stepped
    have count : cells.mb.config.backpressure_count = cells'.mailbox.backpressure_count := by
      rw [agree.sameConfig,agree.count]
    unfold Mailbox.raise_backpressure
    by_cases reached : cells'.mailbox.backpressure_count ≤ size
    · refine ⟨{ cells' with mailbox := { cells'.mailbox with backpressure := true } },.notify,.inl ⟨?_,rfl⟩,
        rfl,.away ?_ .notify rfl rfl rfl rfl⟩
      · rw [loom_mailbox.Pc.advance,if_pos reached]
      · rw [if_pos (count ▸ reached)]
        exact { agree with backpressure := rfl }
    · refine ⟨cells',.notify,.inl ⟨?_,rfl⟩,rfl,.away ?_ .notify rfl rfl rfl rfl⟩
      · rw [loom_mailbox.Pc.advance,if_neg reached]
      · rw [if_neg (count ▸ reached)]
        exact agree
  | notify =>
    cases stepped
    have silent : cells'.notify_waiters.mailbox.notify.registered = none ∧
        Agree config message cells.mb cells'.notify_waiters.mailbox := by
      unfold loom_mailbox.Cells.notify_waiters
      split
      · exact ⟨rfl,{ agree with }⟩
      · next empty => exact ⟨empty,agree⟩
    have nobody : ∀ k, Registered { cells with waiters := [] } cells'.notify_waiters k := by
      intro k
      simp [Registered,silent.1]
    refine ⟨_,.idle,.inl ⟨rfl,rfl⟩,rfl,silent.2,.idle,fun _ => nobody i,fun _ k _ _ => nobody k,by simp [receives],?_⟩
    intro k registered
    rw [silent.1] at registered
    cases registered
  | register =>
    cases stepped
    refine ⟨_,.pop (some false),.inl ⟨rfl,rfl⟩,rfl,{ agree with },.pop_critical true,?_,by simp [receives],by simp [receives],?_⟩
    · intro _
      simp [Registered]
    · intro k registered
      cases registered
      exact .inr ⟨rfl,rfl⟩
  | pop_critical looping =>
    have silent := no_critical agree
    simp only [mailbox.Pc.advance,silent,Option.some.injEq,Prod.mk.injEq] at stepped
    obtain ⟨rfl,rfl⟩ := stepped
    refine ⟨cells',_,.inr ⟨⟨looping,rfl⟩,rfl,rfl,?_⟩,rfl,.quiet agree (.pop_queue looping) rfl rfl own (fun waits => .inl waits)⟩
    simp only [heard,silent]
  | pop_queue looping =>
    have stored := agree.queue
    cases queue : cells'.mailbox.queue with
    | nil =>
      rw [queue,List.map_nil] at stored
      have empty : cells.mb.pop_queue = none := by rw [Mailbox.pop_queue,stored]
      simp only [mailbox.Pc.advance,empty,Option.some.injEq,Prod.mk.injEq] at stepped
      obtain ⟨rfl,rfl⟩ := stepped
      cases looping with
      | false =>
        refine ⟨cells',.idle,.inl ⟨by simp [loom_mailbox.Pc.advance,queue],by simp [heard,heardDouble,empty,queue]⟩,
          rfl,.away agree .idle rfl rfl rfl rfl⟩
      | true =>
        refine ⟨cells',.wait false,.inl ⟨by simp [loom_mailbox.Pc.advance,queue],by simp [heard,heardDouble,empty,queue]⟩,
          rfl,.quiet agree .wait rfl rfl (fun _ => own rfl) (by simp [receives])⟩
    | cons m rest =>
      rw [queue,List.map_cons] at stored
      have popped : cells.mb.pop_queue = some (message m,{ cells.mb with queue := rest.map message }) := by
        rw [Mailbox.pop_queue,stored]
      simp only [mailbox.Pc.advance,popped,Option.some.injEq,Prod.mk.injEq] at stepped
      obtain ⟨rfl,rfl⟩ := stepped
      refine ⟨{ cells' with mailbox := { cells'.mailbox with queue := rest } },.decrement,
        .inl ⟨?_,by simp [heard,heardDouble,popped,queue]⟩,rfl,.away ?_ (.decrement looping) rfl rfl rfl rfl⟩
      · simp [loom_mailbox.Pc.advance,queue]
      · exact { agree with queue := rfl }
  | decrement looping =>
    cases stepped
    exact ⟨_,.release,.inl ⟨rfl,rfl⟩,rfl,.away (agree.sub_size 1) (.release looping) (write_waiters cells _)
      (size_notify cells'.mailbox _) rfl rfl⟩
  | release looping =>
    cases stepped
    exact ⟨_,.load_size,.inl ⟨rfl,rfl⟩,rfl,.away { agree with permits := by simp [Mailbox.add_permits,agree.permits] }
      (.load_size looping) rfl rfl rfl rfl⟩
  | load_size looping =>
    cases stepped
    rw [agree.size]
    exact ⟨cells',.store_flag cells'.mailbox.size,.inl ⟨rfl,rfl⟩,
      rfl,.away agree (.store_flag looping _) rfl rfl rfl rfl⟩
  | store_flag looping size =>
    cases stepped
    have half : cells.mb.config.backpressure_count / 2 = cells'.mailbox.backpressure_count / 2 := by
      rw [agree.sameConfig,agree.count]
    have others : ∀ (cells₁' : loom_mailbox.Cells), cells₁'.mailbox.notify = cells'.mailbox.notify →
        Agree config message (cells.mb.lower_backpressure size) cells₁'.mailbox →
        Joint config message r i (.store_flag size) cells cells'
          { mb := cells.mb.lower_backpressure size
            waiters := if looping = true then cells.waiters.filter (· ≠ i) else cells.waiters }
          .idle cells₁' .idle := by
      intro cells₁' gate agree₁
      refine ⟨agree₁,.idle,(fun listening => by cases listening),?_,(fun waits => by cases waits),?_⟩
      · intro _ k other before
        unfold Registered at before ⊢
        rw [gate,← before]
        dsimp only
        split <;> simp [other]
      · intro k registered
        rw [gate] at registered
        exact .inl registered
    by_cases below : size < cells'.mailbox.backpressure_count / 2
    · refine ⟨{ cells' with mailbox := { cells'.mailbox with backpressure := false } },.idle,.inl ⟨?_,rfl⟩,
        rfl,others _ rfl ?_⟩
      · rw [loom_mailbox.Pc.advance,if_pos below]
      · rw [Mailbox.lower_backpressure,if_pos (half ▸ below)]
        exact { agree with backpressure := rfl }
    · refine ⟨cells',.idle,.inl ⟨?_,rfl⟩,rfl,others _ rfl ?_⟩
      · rw [loom_mailbox.Pc.advance,if_neg below]
      · rw [Mailbox.lower_backpressure,if_neg (half ▸ below)]
        exact agree
  | wait =>
    simp only [mailbox.Pc.advance] at stepped
    split at stepped
    · cases stepped
    · next woken =>
      cases stepped
      -- Only this thread could be registered.
      have nobody : cells'.mailbox.notify.registered = none := by
        rw [Option.eq_none_iff_forall_ne_some]
        intro k registered
        refine woken ((own rfl).mpr ?_)
        rw [registered,single k registered,receiver rfl]
      refine ⟨cells',.enable false,.inl ⟨by simp [loom_mailbox.Pc.advance,nobody],rfl⟩,
        rfl,.quiet agree .register rfl rfl (fun listening => by cases listening) (fun _ => .inl rfl)⟩
  | park => cases awake

theorem listens_receives (same : Same message pc pc') (listening : listens pc = true) : receives pc' = true := by
  cases same with
  | pop_critical looping | pop_queue looping =>
    have looping : looping = true := listening
    rw [looping]
    rfl
  | wait | park => rfl
  | _ => cases listening

/-- Only a receiver that is registered has to wait. -/
theorem advances (same : Same message pc pc') (goes : pc = .park → i ∉ cells.waiters) (call : MailboxCall) :
    ∃ next, pc.advance cells i call = some next := by
  cases same with
  | acquire m =>
    simp only [mailbox.Pc.advance]
    split <;> exact ⟨_,rfl⟩
  | push m size | pop_critical looping | pop_queue looping =>
    simp only [mailbox.Pc.advance]
    split <;> exact ⟨_,rfl⟩
  | wait | park =>
    simp only [mailbox.Pc.advance]
    rw [if_neg (goes rfl)]
    exact ⟨_,rfl⟩
  | _ => exact ⟨_,rfl⟩

end

/-! ## Every run -/

section
variable {config : MailboxConfig} {message : Nat → Message} {r : Nat}

theorem related_set {s : mailbox.Threads} {d : loom_mailbox.Threads} (related : Related config message r s d) {i : Nat}
    {pc pc₁ : mailbox.Pc} {pc' pc₁' : loom_mailbox.Pc} {cells₁ : mailbox.Cells} {cells₁' : loom_mailbox.Cells}
    (found : s.pcs[i]? = some pc) (found' : d.pcs[i]? = some pc')
    (joint : Joint config message r i pc' s.cells d.cells cells₁ pc₁ cells₁' pc₁')
    (accounted : Accounted config.capacity { cells := cells₁, pcs := s.pcs.set i pc₁ }) :
    Related config message r { cells := cells₁, pcs := s.pcs.set i pc₁ } { cells := cells₁', pcs := d.pcs.set i pc₁' } := by
  obtain ⟨bound,-⟩ := List.getElem?_eq_some_iff.mp found
  obtain ⟨bound',-⟩ := List.getElem?_eq_some_iff.mp found'
  refine ⟨accounted,joint.agree,?_,?_,?_,?_⟩
  · intro k
    by_cases mine : i = k
    · subst mine
      rw [List.getElem?_set_self bound,List.getElem?_set_self bound']
      exact .some joint.same
    · rw [List.getElem?_set_ne mine,List.getElem?_set_ne mine]
      exact related.same k
  · intro k own here waits
    by_cases mine : i = k
    · subst mine
      rw [List.getElem?_set_self bound'] at here
      cases here
      exact (joint.receiver waits).elim (related.receiver i pc' found') id
    · rw [List.getElem?_set_ne mine] at here
      exact related.receiver k own here waits
  · intro k own here listening
    by_cases mine : i = k
    · subst mine
      rw [List.getElem?_set_self bound] at here
      cases here
      exact joint.own listening
    · rw [List.getElem?_set_ne mine] at here
      refine joint.others ?_ k (Ne.symm mine) (related.registered k own here listening)
      -- Two threads would be the receiver.
      by_contra waits
      have paired := related.same k
      rw [here] at paired
      cases there : d.pcs[k]? with
      | none =>
        rw [there] at paired
        cases paired
      | some own' =>
        rw [there] at paired
        cases paired with
        | some same =>
          have other := related.receiver k own' there (listens_receives same listening)
          have self := related.receiver i pc' found' (by simpa using waits)
          exact mine (self.trans other.symm)
  · intro k registered
    rcases joint.single k registered with before | ⟨rfl,waits⟩
    · exact related.single k before
    · exact related.receiver k pc' found' waits

/-- The place of a thread in the other program. -/
theorem Related.place {s : mailbox.Threads} {d : loom_mailbox.Threads} (related : Related config message r s d) (i : Nat) :
    (s.pcs[i]? = none ∧ d.pcs[i]? = none) ∨
      ∃ pc pc', s.pcs[i]? = some pc ∧ d.pcs[i]? = some pc' ∧ Same message pc pc' := by
  have paired := related.same i
  cases here : s.pcs[i]? with
  | none =>
    rw [here] at paired
    cases there : d.pcs[i]? with
    | none => exact .inl ⟨rfl,rfl⟩
    | some pc' =>
      rw [there] at paired
      cases paired
  | some pc =>
    rw [here] at paired
    cases there : d.pcs[i]? with
    | none =>
      rw [there] at paired
      cases paired
    | some pc' =>
      rw [there] at paired
      cases paired with
      | some same => exact .inr ⟨pc,pc',rfl,rfl,same⟩

variable (plain : ∀ m, urgent config (message m) = false) (fits : config.capacity < 2 ^ 64)
include plain fits

/-- A step of the mailbox's threads, and the double's answer. -/
theorem answered {s s' : mailbox.Threads} {d : loom_mailbox.Threads} (related : Related config message r s d) {i : Nat}
    {pc : mailbox.Pc} {pc' : loom_mailbox.Pc} (found : s.pcs[i]? = some pc) (found' : d.pcs[i]? = some pc')
    (awake : parks pc' = false) (call' : LoomCall) {call : MailboxCall}
    (lifted : pc = .idle → call = lift message call' ∧ Serves r i call') (stepped : s.step (i,call) = some s') :
    ∃ d', (d.step (i,call') = some d' ∧ (double message r).shows d (i,call') = (threads message r).shows s (i,call) ∨
        (∃ looping, pc = .pop_critical looping) ∧ d' = d ∧ (threads message r).shows s (i,call) = []) ∧
      (∃ pc₁', d'.pcs = d.pcs.set i pc₁' ∧ parks pc₁' = false) ∧ Related config message r s' d' := by
  have accounted := accounted_step fits related.accounted stepped
  obtain ⟨pc,same,rest⟩ := Option.bind_eq_some_iff.mp stepped
  rw [found] at same
  cases same
  obtain ⟨⟨cells₁,pc₁⟩,advanced,same⟩ := Option.bind_eq_some_iff.mp rest
  cases same
  have paired := related.same i
  rw [found,found'] at paired
  cases paired with
  | some same =>
    obtain ⟨cells₁',pc₁',outcome,awake₁,joint⟩ := double_answers plain lifted
      (related.accounted.bounds.2 pc (List.mem_of_getElem? found) fits) related.agree same
      (fun listening => related.registered i pc found listening) (fun waits => related.receiver i pc' found' waits)
      related.single awake advanced
    have next := related_set related found found' joint accounted
    refine ⟨{ cells := cells₁', pcs := d.pcs.set i pc₁' },?_,⟨pc₁',rfl,awake₁⟩,next⟩
    simp only [threads,double,found,found',Option.elim_some]
    rcases outcome with ⟨advanced',shown⟩ | ⟨critical,rfl,rfl,silent⟩
    · refine .inl ⟨?_,shown⟩
      simp only [loom_mailbox.Threads.step,found',Option.bind_eq_bind,Option.bind_some,advanced']
    · refine .inr ⟨critical,?_,silent⟩
      rw [Counting.set_same found']

/-- No thread of the double is inside `park`. -/
def Awake (d : loom_mailbox.Threads) : Prop := ∀ pc' ∈ d.pcs, parks pc' = false

omit plain fits in
theorem awake_set {d : loom_mailbox.Threads} (awake : Awake d) {i : Nat} {pc₁' : loom_mailbox.Pc} (up : parks pc₁' = false)
    {d' : loom_mailbox.Threads} (written : d'.pcs = d.pcs.set i pc₁') : Awake d' := by
  intro pc' member
  rw [written] at member
  rcases List.mem_or_eq_of_mem_set member with old | rfl
  · exact awake pc' old
  · exact up

theorem double_simulates :
    Simulates (threads message r) (double message r) (fun s d => Related config message r s d ∧ Awake d) := by
  rintro s d ⟨i,call⟩ s' ⟨related,awake⟩ allowed stepped
  obtain ⟨pc,found,-⟩ := Option.bind_eq_some_iff.mp stepped
  rcases related.place i with ⟨none,-⟩ | ⟨pc₀,pc',found₀,found',same⟩
  · rw [found] at none
    cases none
  · rw [found] at found₀
    cases found₀
    have up := awake pc' (List.mem_of_getElem? found')
    have lifted : ∃ call', pc = .idle → call = lift message call' ∧ Serves r i call' := by
      by_cases idle : pc = .idle
      · subst idle
        obtain ⟨call',same,serves⟩ := allowed found
        exact ⟨call',fun _ => ⟨same,serves⟩⟩
      · exact ⟨.try_recv,fun here => absurd here idle⟩
    obtain ⟨call',lifted⟩ := lifted
    obtain ⟨d',outcome,⟨pc₁',written,up'⟩,next⟩ := answered plain fits related found found' up call' lifted stepped
    refine ⟨d',?_,next,awake_set awake up' written⟩
    rcases outcome with ⟨moved,shown⟩ | ⟨-,rfl,silent⟩
    · rw [← shown]
      refine .one ?_ moved
      intro idle
      rw [found'] at idle
      cases idle
      cases same
      exact (lifted rfl).2
    · rw [silent]
      exact .start

omit plain in
/-- A look at the critical queue finds nothing, and shows nothing. -/
theorem critical_skipped {s : mailbox.Threads} {d : loom_mailbox.Threads} (related : Related config message r s d) {i : Nat}
    {looping : Bool} (found : s.pcs[i]? = some (.pop_critical looping)) :
    ∃ s', (threads message r).Runs s [] s' ∧ Related config message r s' d ∧ s'.pcs[i]? = some (.pop_queue looping) := by
  obtain ⟨bound,-⟩ := List.getElem?_eq_some_iff.mp found
  have silent := no_critical related.agree
  have stepped : s.step (i,.try_recv) = some { s with pcs := s.pcs.set i (.pop_queue looping) } := by
    simp only [mailbox.Threads.step,found,Option.bind_eq_bind,Option.bind_some,mailbox.Pc.advance,silent]
  have shown : (threads message r).shows s (i,.try_recv) = [] := by
    simp only [threads,found,Option.elim_some,heard,silent]
  rcases related.place i with ⟨none,-⟩ | ⟨pc,pc',found₀,found',same⟩
  · rw [found] at none
    cases none
  · rw [found] at found₀
    cases found₀
    cases same with
    | pop_critical looping =>
      have joint : Joint config message r i _ s.cells d.cells s.cells (.pop_queue looping) d.cells _ :=
        .quiet related.agree (.pop_queue looping) rfl rfl (fun listening => related.registered i _ found listening)
          (fun waits => .inl waits)
      have next := related_set related found found' joint (accounted_step fits related.accounted stepped)
      rw [Counting.set_same found'] at next
      refine ⟨_,?_,next,List.getElem?_set_self bound⟩
      rw [← shown]
      refine .one ?_ stepped
      intro idle
      rw [found] at idle
      cases idle

theorem mailbox_simulates :
    Simulates (double message r) (threads message r) (fun d s => Related config message r s d) := by
  rintro d s ⟨i,call'⟩ d' related allowed stepped'
  obtain ⟨pc',found',rest⟩ := Option.bind_eq_some_iff.mp stepped'
  obtain ⟨⟨cells₁',pc₁'⟩,advanced',same⟩ := Option.bind_eq_some_iff.mp rest
  cases same
  have shown : (double message r).shows d (i,call') = heardDouble message d.cells.mailbox i call' pc' := by
    simp only [double,found',Option.elim_some]
  -- A step inside `wait` that the mailbox has no access for.
  have stutters : ∀ {pc : mailbox.Pc}, s.pcs[i]? = some pc → Same message pc pc₁' → receives pc' = true →
      cells₁'.mailbox = d.cells.mailbox → heardDouble message d.cells.mailbox i call' pc' = [] →
      ∃ s', (threads message r).Runs s ((double message r).shows d (i,call')) s' ∧
        Related config message r s' { cells := cells₁', pcs := d.pcs.set i pc₁' } := by
    intro pc found same waits kept silent
    have agree : Agree config message s.cells.mb cells₁'.mailbox := by
      rw [kept]
      exact related.agree
    have joint : Joint config message r i pc' s.cells d.cells s.cells pc cells₁' pc₁' :=
      .quiet agree same rfl (by rw [kept]) (fun listening => related.registered i pc found listening) (fun _ => .inl waits)
    have next := related_set related found found' joint (by rw [Counting.set_same found]; exact related.accounted)
    rw [Counting.set_same found] at next
    rw [shown,silent]
    exact ⟨s,.start,next⟩
  -- The mailbox takes the same step.
  have follows : ∀ {s : mailbox.Threads} {pc : mailbox.Pc}, Related config message r s d → s.pcs[i]? = some pc →
      Same message pc pc' → (∀ looping, pc ≠ .pop_critical looping) → (pc = .park → i ∉ s.cells.waiters) → parks pc' = false →
      ∃ s', (threads message r).Runs s ((double message r).shows d (i,call')) s' ∧
        Related config message r s' { cells := cells₁', pcs := d.pcs.set i pc₁' } := by
    intro s pc related found same ordinary goes awake
    obtain ⟨⟨cells₁,pc₁⟩,advanced⟩ := advances same goes (lift message call')
    have stepped : s.step (i,lift message call') = some { cells := cells₁, pcs := s.pcs.set i pc₁ } := by
      simp only [mailbox.Threads.step,found,Option.bind_eq_bind,Option.bind_some,advanced]
    have serves : pc = .idle → lift message call' = lift message call' ∧ Serves r i call' := by
      rintro rfl
      cases same
      exact ⟨rfl,allowed found'⟩
    obtain ⟨d',outcome,-,next⟩ := answered plain fits related found found' awake call' serves stepped
    rcases outcome with ⟨moved,same⟩ | ⟨⟨looping,critical⟩,-⟩
    · have reached : some d' = some { cells := cells₁', pcs := d.pcs.set i pc₁' } := moved.symm.trans stepped'
      cases reached
      refine ⟨_,?_,next⟩
      rw [same]
      refine .one ?_ stepped
      intro idle
      rw [found] at idle
      cases idle
      exact ⟨call',rfl,(serves rfl).2⟩
    · exact absurd critical (ordinary looping)
  rcases related.place i with ⟨-,none⟩ | ⟨pc,pc₀,found,found₀,same⟩
  · rw [found'] at none
    cases none
  · rw [found'] at found₀
    cases found₀
    cases same with
    | pop_critical looping =>
      obtain ⟨s₁,skipped,related₁,found₁⟩ := critical_skipped fits related found
      obtain ⟨s',runs,next⟩ := follows related₁ found₁ (.pop_queue looping) (by simp) (by simp) rfl
      exact ⟨s',by simpa using skipped.append runs,next⟩
    | wait =>
      cases registered : d.cells.mailbox.notify.registered with
      | some k =>
        simp only [loom_mailbox.Pc.advance,registered,Option.isSome_some,if_true,Option.some.injEq,Prod.mk.injEq] at advanced'
        obtain ⟨rfl,rfl⟩ := advanced'
        exact stutters found .park rfl rfl rfl
      | none =>
        refine follows related found .wait (by simp) (fun _ => ?_) rfl
        have known : i ∈ s.cells.waiters ↔ d.cells.mailbox.notify.registered = some i := related.registered i .park found rfl
        rw [known,registered]
        simp
    | park =>
      simp only [loom_mailbox.Pc.advance] at advanced'
      split at advanced'
      · cases advanced'
        exact stutters found .wait rfl rfl rfl
      · cases advanced'
    | idle => exact follows related found .idle (by simp) (by simp) rfl
    | acquire m => exact follows related found (.acquire m) (by simp) (by simp) rfl
    | increment m => exact follows related found (.increment m) (by simp) (by simp) rfl
    | push m size => exact follows related found (.push m size) (by simp) (by simp) rfl
    | threshold size => exact follows related found (.threshold size) (by simp) (by simp) rfl
    | notify => exact follows related found .notify (by simp) (by simp) rfl
    | register => exact follows related found .register (by simp) (by simp) rfl
    | pop_queue looping => exact follows related found (.pop_queue looping) (by simp) (by simp) rfl
    | decrement looping => exact follows related found (.decrement looping) (by simp) (by simp) rfl
    | release looping => exact follows related found (.release looping) (by simp) (by simp) rfl
    | load_size looping => exact follows related found (.load_size looping) (by simp) (by simp) rfl
    | store_flag looping size => exact follows related found (.store_flag looping size) (by simp) (by simp) rfl

end

theorem related_init (actor_id : ActorId) (message : Nat → Message) (r capacity n : Nat) (priority_queue : Bool) :
    Related (.with_threshold capacity priority_queue default_threshold) message r
      (.init actor_id (.with_threshold capacity priority_queue default_threshold) n) (.init capacity n) := by
  refine ⟨accounted_init actor_id _ n,⟨rfl,rfl,rfl,rfl,rfl,rfl,rfl,rfl⟩,?_,?_,?_,?_⟩
  · intro i
    show Option.Rel (Same message) (List.replicate n mailbox.Pc.idle)[i]? (List.replicate n loom_mailbox.Pc.idle)[i]?
    rw [List.getElem?_replicate,List.getElem?_replicate]
    split
    · exact .some .idle
    · exact .none
  · intro i pc found waits
    rw [List.eq_of_mem_replicate (List.mem_of_getElem? found)] at waits
    cases waits
  · intro i pc found listening
    rw [List.eq_of_mem_replicate (List.mem_of_getElem? found)] at listening
    cases listening
  · intro i registered
    cases registered

/-- Whatever the threads of a mailbox show on the way to an account of it, the
    threads of the double show on the way to the same account, and the other way
    round. -/
theorem double_is_mailbox (capacity : Nat) (fits : capacity < 2 ^ 64) (priority_queue : Bool) (message : Nat → Message)
    (plain : ∀ m, urgent (.with_threshold capacity priority_queue default_threshold) (message m) = false)
    (actor_id : ActorId) (n r : Nat) (events : List Event) (seen : Account) :
    (∃ s, (threads message r).Runs (.init actor_id (.with_threshold capacity priority_queue default_threshold) n) events s ∧
        account s = seen) ↔
      ∃ d, (double message r).Runs (.init capacity n) events d ∧ accountDouble message d = seen := by
  have related := related_init actor_id message r capacity n priority_queue
  have awake : Awake (.init capacity n) := by
    intro pc' member
    rw [List.eq_of_mem_replicate member]
    rfl
  have agrees : ∀ s d, Related (.with_threshold capacity priority_queue default_threshold) message r s d →
      account s = accountDouble message d := by
    intro s d related
    have agree := related.agree
    rw [account,accountDouble,contents,agree.critical,agree.queue,agree.size,agree.permits,agree.backpressure,List.nil_append]
  refine same_runs (double_simulates plain fits) (mailbox_simulates plain fits) ?_ ⟨related,awake⟩ related events seen
  rintro s d (⟨related,-⟩ | related)
  · exact agrees s d related
  · exact agrees s d related

/-- A receiver waits, and a sender wakes it. -/
def handshake : List (Nat × LoomCall) :=
  List.replicate 3 (1,.recv) ++ List.replicate 6 (0,.try_send 7) ++ List.replicate 3 (1,.recv)

/-- The messages that numbers stand for. -/
def numbered (m : Nat) : Message := { sender := none, payload := .Custom [m.toUInt8], priority := .Normal }

theorem double_is_mailbox_handshake :
    ∃ s, (threads numbered 1).Runs (.init ⟨0⟩ (.with_threshold 2 true default_threshold) 2)
        [.called 1 .recv,.called 0 (.try_send (numbered 7)),.sent 0 (numbered 7),.received 1 (numbered 7)] s ∧
      account s = { stored := [], size := 1, permits := 1, backpressure := true } := by
  have seen : ((double numbered 1).trace (.init 2 2) handshake).map (fun run => (run.1,accountDouble numbered run.2)) =
      some ([.called 1 .recv,.called 0 (.try_send (numbered 7)),.sent 0 (numbered 7),.received 1 (numbered 7)],
        { stored := [], size := 1, permits := 1, backpressure := true }) := by decide +kernel
  obtain ⟨⟨events,d⟩,traced,same⟩ := Option.map_eq_some_iff.mp seen
  obtain ⟨rfl,counted⟩ := Prod.mk.inj same
  refine (double_is_mailbox 2 (by decide) true numbered (fun _ => rfl) ⟨0⟩ 2 1 _ _).mpr ⟨d,trace_runs ?_ traced,counted⟩
  intro a member s
  have serves : ∀ a ∈ handshake, Serves 1 a.1 a.2 := by
    unfold handshake Serves
    simp
  exact fun _ => serves a member

end ActorKit.LoomDouble
