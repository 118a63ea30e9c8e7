import ActorKit.Lib.Receipts
import ActorKit.Sim.Population

/-!
# The accounts of the simulation

The invariant of a simulation: the population is consistent, the ledger books what
is queued, every injected message is accounted for, the restarts are within their
limits and the counters are the sums of the ledger. Inside a method part of the
world is in its hands: a chosen task, the messages of a delivery, a crashed actor.
Every update the methods make is followed here; `Audits` puts them together.
-/

namespace ActorKit.Sim.Accounts
open ActorKit.mailbox ActorKit.registry ActorKit.queue ActorKit.scheduler ActorKit.sim ActorKit.supervisor
open ActorKit.MailboxAccounting ActorKit.MailboxCalls ActorKit.Receipts
open ActorKit.Sim.Pipeline ActorKit.Sim.Texts ActorKit.Sim.Restarts ActorKit.Sim.Population

/-- The application messages of one actor in queued tasks. -/
def booked (ord : Nat) (tasks : List SimTask) : Nat := (tasks.map (fun t => if t.ord = ord then t.app_len else 0)).sum

theorem booked_cons (ord : Nat) (t : SimTask) (tasks : List SimTask) :
    booked ord (t :: tasks) = (if t.ord = ord then t.app_len else 0) + booked ord tasks := rfl

theorem booked_perm (ord : Nat) {tasks tasks' : List SimTask} (same : tasks.Perm tasks') :
    booked ord tasks = booked ord tasks' := (same.map _).sum_eq

/-- The identities of the messages that wait somewhere. -/
def pendingOf (s : Sim) : List Nat :=
  s.ready.tasks.flatMap (·.mids) ++ (s.delayed.flatMap (·.payload.mids) ++ s.blocked.flatMap (·.mids))

/-- A delivery that can be attempted. -/
def Sendable (actors : Nat) (p : DeliverPayload) : Prop := p.ord < actors ∧ Mail p.mids p.msgs

/-- The counters are the sums of the ledger. -/
structure Totals (stats : SimStats) (ledger : List ActorLedger) : Prop where
  delivered : stats.delivered = (ledger.map (·.delivered)).sum
  consumed : stats.processed + stats.system_processed = (ledger.map (·.consumed)).sum
  dropped : stats.dropped = (ledger.map (·.dropped)).sum

/-- What a method holds while it runs. -/
structure Hand where
  /-- The actor whose crash is being handled. -/
  fallen : Option (Nat × Bool) := none
  /-- Tasks taken out and not yet served. -/
  held : List SimTask := []
  /-- Tasks taken out and not yet off the books. -/
  chosen : List SimTask := []
  /-- Messages in no queue. -/
  loose : List Nat := []
  /-- The actor that was granted a restart and is not yet respawned. -/
  granted : Option Nat := none

def incsOf (ledger : List ActorLedger) : List Nat := ledger.map (·.incarnation)

/-- The incarnations the supervisor knows of. -/
def Hand.incs (hand : Hand) (ledger : List ActorLedger) : List Nat :=
  match hand.granted with
  | some ord => bump ord (incsOf ledger)
  | none => incsOf ledger

/-- The invariant, for a world of `n` actors. -/
structure Inv (c : SimConfig) (o : Outside) (n : Nat) (hand : Hand) (s : Sim) : Prop where
  sameConfig : s.config = c
  sameOutside : s.outside = o
  count : s.ledger.length = n
  world : Consistent c.mailbox s.registry s.actors s.ordinals s.ledger (hand.held ++ s.ready.tasks) hand.fallen
  books : ∀ ord led, s.ledger[ord]? = some led → led.queued = booked ord (hand.chosen ++ s.ready.tasks)
  ids : Accounted (c.faults.duplicate_prob = .zero) s.next_mid (hand.loose ++ pendingOf s) s.mid_times s.mid_lost
  size : s.mid_times.length = c.messages.toNat
  delayed : ∀ later ∈ s.delayed, Sendable n later.payload
  blocked : ∀ p ∈ s.blocked, Sendable n p
  root : ∃ sup, s.tree.supervisors.lookup s.root = some sup ∧ Kept c.max_restarts o sup (hand.incs s.ledger) s.trace
  totals : Totals s.stats s.ledger
  calm : s.executor = {}

section
variable {c : SimConfig} {o : Outside} {n : Nat} {hand : Hand} {s : Sim}

/-! ## Updates of the trace and the counters -/

/-- Trace entries that are no restarts, and counters no account uses. -/
theorem Inv.noted (inv : Inv c o n hand s) (ops : List TraceOp) (plain : ∀ op ∈ ops, Plain op) (stats : SimStats)
    (same : stats.delivered = s.stats.delivered ∧
      stats.processed + stats.system_processed = s.stats.processed + s.stats.system_processed ∧
      stats.dropped = s.stats.dropped) :
    Inv c o n hand { s with trace := s.trace ++ ops, stats } := by
  obtain ⟨sup,found,kept⟩ := inv.root
  refine { inv with
    root := ⟨sup,found,kept.traced ops plain⟩
    totals := ⟨same.1.trans inv.totals.delivered,same.2.1.trans inv.totals.consumed,
      same.2.2.trans inv.totals.dropped⟩ }

theorem plain_nil : ∀ op ∈ ([] : List TraceOp), Plain op := fun op member => by cases member

theorem plain_one {op : TraceOp} (plain : Plain op) : ∀ op' ∈ [op], Plain op' := by
  intro op' member
  rw [List.mem_singleton.mp member]
  exact plain

/-- A step that only moves counters no account uses. -/
theorem Inv.counted (inv : Inv c o n hand s) (stats : SimStats)
    (same : stats.delivered = s.stats.delivered ∧
      stats.processed + stats.system_processed = s.stats.processed + s.stats.system_processed ∧
      stats.dropped = s.stats.dropped) : Inv c o n hand { s with stats } := by
  have noted := inv.noted [] plain_nil stats same
  rwa [List.append_nil] at noted

theorem Inv.traced (inv : Inv c o n hand s) {op : TraceOp} (plain : Plain op) : Inv c o n hand (s.traced op) :=
  inv.noted [op] (plain_one plain) s.stats ⟨rfl,rfl,rfl⟩

/-- The entry a delivery leaves in the trace, when it has application messages. -/
def noteOf (op : Nat → TraceOp) (mids : List Nat) : List TraceOp :=
  match mids.head? with
  | some first => [op first]
  | none => []

theorem noteOf_plain {op : Nat → TraceOp} (plain : ∀ first, Plain (op first)) (mids : List Nat) :
    ∀ entry ∈ noteOf op mids, Plain entry := by
  intro entry member
  unfold noteOf at member
  split at member
  · rw [List.mem_singleton.mp member]
    exact plain _
  · cases member

/-! ## Rejections -/

/-- What a rejection leaves alone. -/
theorem reject_frame (ord : Nat) (reason : RejectReason) (mids : List Nat) (s : Sim) :
    (s.reject ord reason mids).delayed = s.delayed ∧ (s.reject ord reason mids).blocked = s.blocked ∧
      (s.reject ord reason mids).ledger = s.ledger := by
  unfold Sim.reject
  induction mids generalizing s with
  | nil => exact ⟨rfl,rfl,rfl⟩
  | cons mid mids ih => exact ih _

/-- Rejected messages are given up. -/
theorem Inv.reject {fallen : Option (Nat × Bool)} {held chosen : List SimTask} {loose : List Nat} (ord : Nat)
    (reason : RejectReason) (mids : List Nat)
    (inv : Inv c o n { fallen, held, chosen, loose := mids ++ loose } s) :
    Inv c o n { fallen, held, chosen, loose } (s.reject ord reason mids) := by
  unfold Sim.reject
  induction mids generalizing s with
  | nil => exact inv
  | cons mid mids ih =>
    refine ih ?_
    have lost : Inv c o n { fallen, held, chosen, loose := mids ++ loose } (s.mark_lost mid) :=
      { inv with ids := inv.ids.lose }
    exact lost.noted [.Reject (.ofNat mid) (.ofNat ord) reason] (plain_one (fun _ _ same => by cases same)) _
      ⟨rfl,rfl,rfl⟩

/-! ## Deliveries -/

/-- The messages of a delivery wait in the blocked queue. -/
theorem Inv.park {ord : Nat} {msgs : List Message} {mids : List Nat} (inv : Inv c o n { loose := mids } s)
    (small : ord < n) (mail : Mail mids msgs) (was_blocked : Bool) :
    Inv c o n {} (s.park ord msgs mids was_blocked) := by
  let entries := if was_blocked then []
    else noteOf (fun first => .Blocked (.ofNat first) (.ofNat mids.length) (.ofNat ord)) mids
  have plain : ∀ op ∈ entries, Plain op := by
    intro op member
    unfold entries at member
    split at member
    · cases member
    · exact noteOf_plain (fun _ _ _ same => by cases same) mids op member
  have same : s.park ord msgs mids was_blocked =
      { s with
        stats := { s.stats with blocked := s.stats.blocked + 1 }
        trace := s.trace ++ entries
        blocked := s.blocked ++ [{ ord, msgs, mids, was_blocked := true }] } := by
    simp only [Sim.park,entries,noteOf]
    cases mids.head? <;> cases was_blocked <;> simp
  rw [same]
  have noted := inv.noted entries plain { s.stats with blocked := s.stats.blocked + 1 } ⟨rfl,rfl,rfl⟩
  refine { noted with ids := noted.ids.perm ?_, blocked := ?_ }
  · simp only [pendingOf,List.flatMap_append,List.flatMap_singleton,List.nil_append]
    refine List.perm_append_comm.trans ?_
    simp only [List.append_assoc]
    exact List.Perm.refl _
  · intro p member
    rcases List.mem_append.mp member with old | new
    · exact inv.blocked p old
    · rw [List.mem_singleton.mp new]
      exact ⟨small,mail⟩

theorem push_later_perm (entry : DeliverLater) (delayed : List DeliverLater) :
    (push_later entry delayed).Perm (entry :: delayed) := by
  induction delayed with
  | nil => exact List.Perm.refl _
  | cons first rest ih =>
    unfold push_later
    split
    · exact List.Perm.refl _
    · exact (ih.cons first).trans (List.Perm.swap ..)

/-- The messages of a delivery wait in the timer heap. -/
theorem Inv.postpone {ord : Nat} {msgs : List Message} {mids : List Nat} {loose : List Nat}
    (inv : Inv c o n { loose := mids ++ loose } s) (small : ord < n) (mail : Mail mids msgs) (due seq : Nat)
    (was_blocked : Bool) :
    Inv c o n { loose } { s with
      next_seq := seq
      delayed := push_later { due, seq, payload := { ord, msgs, mids, was_blocked } } s.delayed } := by
  have moved := push_later_perm { due, seq, payload := { ord, msgs, mids, was_blocked } } s.delayed
  refine { inv with ids := inv.ids.perm ?_, delayed := ?_ }
  · refine List.perm_iff_count.mpr (fun mid => ?_)
    have pushed := (moved.flatMap_right (·.payload.mids)).count_eq mid
    simp only [List.flatMap_cons,List.count_append] at pushed
    simp only [pendingOf,List.count_append,pushed]
    omega
  · intro later member
    rcases List.mem_cons.mp (moved.mem_iff.mp member) with rfl | old
    · exact ⟨small,mail⟩
    · exact inv.delayed later old

/-- Room for all messages means that all of them are taken. -/
theorem push_all_stores {config : MailboxConfig} (fits : config.capacity < 2 ^ 64) (msgs : List Message) {mb : Mailbox}
    (sound : Sound config mb) (room : queued mb + msgs.length ≤ config.capacity) :
    ∃ mb', push_all mb msgs = .ok mb' ∧ Sound config mb' ∧ queued mb' = queued mb + msgs.length := by
  unfold push_all
  induction msgs generalizing mb with
  | nil => exact ⟨mb,rfl,sound,rfl⟩
  | cons m msgs ih =>
    rw [List.length_cons] at room
    rcases try_send_stores fits sound m with ⟨none,-⟩ | ⟨mb₁,sent,sound₁,perm⟩
    · have := sound.permits
      omega
    · have size : queued mb₁ = queued mb + 1 := by
        rw [← contents_length,← contents_length,perm.length_eq,List.length_cons]
      obtain ⟨mb',rest,sound',size'⟩ := ih sound₁ (by omega)
      refine ⟨mb',?_,sound',by rw [List.length_cons]; omega⟩
      rw [List.foldlM_cons,sent]
      exact rest

theorem incsOf_modify (ledger : List ActorLedger) (ord : Nat) (f : ActorLedger → ActorLedger)
    (keeps : ∀ led, (f led).incarnation = led.incarnation) : incsOf (ledger.modify ord f) = incsOf ledger := by
  refine List.ext_getElem? (fun i => ?_)
  simp only [incsOf,List.getElem?_map,List.getElem?_modify]
  cases ledger[i]? with
  | none => rfl
  | some led =>
    simp only [Option.map_eq_map,Option.map_some]
    split
    · rw [keeps]
    · rfl

theorem incs_modify (hand : Hand) (ledger : List ActorLedger) (ord : Nat) (f : ActorLedger → ActorLedger)
    (keeps : ∀ led, (f led).incarnation = led.incarnation) : hand.incs (ledger.modify ord f) = hand.incs ledger := by
  unfold Hand.incs
  rw [incsOf_modify ledger ord f keeps]

/-- The sum of a figure that an update of one actor does not touch. -/
theorem sum_untouched (count : ActorLedger → Nat) (ledger : List ActorLedger) (ord : Nat) (f : ActorLedger → ActorLedger)
    (keeps : ∀ led, count (f led) = count led) : ((ledger.modify ord f).map count).sum = (ledger.map count).sum := by
  cases found : ledger[ord]? with
  | none => rw [List.modify_eq_self (List.getElem?_eq_none_iff.mp found)]
  | some led =>
    have moved := Counting.sum_map_modify count found f
    rw [keeps] at moved
    omega

/-- The books after an update of one actor. -/
theorem books_modify {ledger : List ActorLedger} {tasks tasks' : List SimTask} (ord : Nat)
    (f : ActorLedger → ActorLedger)
    (books : ∀ ord led, ledger[ord]? = some led → led.queued = booked ord tasks)
    (others : ∀ other, other ≠ ord → booked other tasks' = booked other tasks)
    (here : ∀ led, ledger[ord]? = some led → (f led).queued = booked ord tasks') :
    ∀ other led, (ledger.modify ord f)[other]? = some led → led.queued = booked other tasks' := by
  intro other led found
  obtain ⟨old,at_,rfl⟩ := modified_led found
  by_cases same : other = ord
  · subst same
    rw [if_pos rfl]
    exact here old at_
  · rw [if_neg same,others other same]
    exact books other old at_

/-- The messages of a delivery are in the mailbox and their task is queued. -/
theorem Inv.deliver {ord : Nat} {mids : List Nat} (inv : Inv c o n { loose := mids } s) (distinct : Distinct s.ledger)
    {led : ActorLedger} (found : s.ledger[ord]? = some led) (lives : led.alive = true) {mb mb' : Mailbox}
    (box : s.registry.mailboxes.lookup (idOf ord led) = some mb) (sound : Sound c.mailbox mb') {task : Task}
    (addressed : task.actor_id = idOf ord led) (mail : Mail mids task.messages)
    (grown : queued mb' = queued mb + task.messages.length) (was_blocked : Bool) :
    Inv c o n {} (s.deliver ord (idOf ord led) mb' task mids was_blocked) := by
  let t : SimTask := { ord, task, mids }
  let f : ActorLedger → ActorLedger := fun led =>
    { led with delivered := led.delivered + task.messages.length, queued := led.queued + mids.length }
  let entries := noteOf (fun first => .Deliver (.ofNat first) (.ofNat mids.length) (.ofNat ord)) mids
  have pushed := ReadySet.push_tasks s.ready t
  have same : s.deliver ord (idOf ord led) mb' task mids was_blocked =
      { s with
        registry := s.registry.on_mailbox (idOf ord led) (fun _ => mb')
        ledger := s.ledger.modify ord f
        stats := { s.stats with
          delivered := s.stats.delivered + task.messages.length
          unblocked := if was_blocked then s.stats.unblocked + 1 else s.stats.unblocked }
        trace := s.trace ++ entries
        ready := s.ready.push t } := by
    simp only [Sim.deliver,entries,noteOf,t,f]
    cases mids.head? <;> simp
  rw [same]
  obtain ⟨sup,at_,kept⟩ := inv.root
  refine { inv with
    count := (List.length_modify ..).trans inv.count
    world := (inv.world.deliver distinct found lives box sound (t := t) rfl addressed mail grown mids.length).perm
      pushed.symm
    books := ?_
    ids := inv.ids.perm ?_
    root := ⟨sup,at_,?_⟩
    totals := ⟨?_,?_,?_⟩ }
  · refine books_modify ord f inv.books (fun other apart => ?_) (fun led at_ => ?_)
    · rw [List.nil_append,booked_perm other pushed,booked_cons,if_neg (Ne.symm apart),Nat.zero_add]
      rfl
    · have before := inv.books ord led at_
      rw [List.nil_append,booked_perm ord pushed,booked_cons,if_pos rfl]
      show led.queued + mids.length = mids.length + booked ord s.ready.tasks
      rw [List.nil_append] at before
      omega
  · refine List.perm_iff_count.mpr (fun mid => ?_)
    have moved := (pushed.flatMap_right (·.mids)).count_eq mid
    simp only [List.flatMap_cons,List.count_append] at moved
    simp only [pendingOf,List.nil_append,List.count_append,moved,t]
    omega
  · rw [incs_modify _ _ _ f (fun _ => rfl)]
    exact kept.traced entries (noteOf_plain (fun _ _ _ same => by cases same) mids)
  · have moved := Counting.sum_map_modify (·.delivered) found f
    have before := inv.totals.delivered
    simp only [f] at moved ⊢
    omega
  · rw [sum_untouched (·.consumed) _ _ f (fun _ => rfl)]
    exact inv.totals.consumed
  · rw [sum_untouched (·.dropped) _ _ f (fun _ => rfl)]
    exact inv.totals.dropped

/-! ## Injections -/

/-- New messages get the next identities. -/
theorem Inv.announce (inv : Inv c o n {} s) {len : Nat} (fits : s.next_mid + len ≤ s.mid_times.length) (target : Nat) :
    Inv c o n { loose := List.range' s.next_mid len } (s.announce len target) := by
  let entry : TraceOp := if 1 < len then .BatchSend (.ofNat s.next_mid) (.ofNat len) (.ofNat target)
    else .Send (.ofNat s.next_mid) (.ofNat target)
  have plain : Plain entry := by
    intro target allowed same
    unfold entry at same
    split at same <;> cases same
  have noted := inv.noted [entry] (plain_one plain) { s.stats with injected := s.stats.injected + len } ⟨rfl,rfl,rfl⟩
  exact { noted with ids := inv.ids.issue len fits }

/-- A duplicate of messages that were injected. -/
theorem Inv.duplicate (inv : Inv c o n {} s) (copies : c.faults.duplicate_prob ≠ .zero) (mids : List Nat)
    (issued : ∀ mid ∈ mids, mid < s.next_mid) : Inv c o n { loose := mids } s :=
  { inv with ids := inv.ids.copy copies mids issued }

/-! ## Taking things out -/

/-- The earliest delayed delivery is taken out. -/
theorem Inv.pop_delayed (inv : Inv c o n {} s) {later : DeliverLater} {rest : List DeliverLater}
    (first : s.delayed = later :: rest) (stats : SimStats)
    (same : stats.delivered = s.stats.delivered ∧
      stats.processed + stats.system_processed = s.stats.processed + s.stats.system_processed ∧
      stats.dropped = s.stats.dropped) :
    Inv c o n { loose := later.payload.mids } { s with delayed := s.delayed.tail, stats } ∧ Sendable n later.payload := by
  have counted := inv.counted stats same
  refine ⟨{ counted with ids := inv.ids.perm ?_, delayed := ?_ },inv.delayed later (by rw [first]; exact List.mem_cons_self)⟩
  · refine List.perm_iff_count.mpr (fun mid => ?_)
    simp only [pendingOf,first,List.tail_cons,List.nil_append,List.flatMap_cons,List.count_append]
    omega
  · exact fun entry member => inv.delayed entry (List.mem_of_mem_tail member)

/-- The oldest parked delivery is taken out. -/
theorem Inv.pop_blocked (inv : Inv c o n {} s) {p : DeliverPayload} {rest : List DeliverPayload}
    (first : s.blocked = p :: rest) :
    Inv c o n { loose := p.mids } { s with blocked := s.blocked.tail } ∧ Sendable n p := by
  refine ⟨{ inv with ids := inv.ids.perm ?_, blocked := ?_ },inv.blocked p (by rw [first]; exact List.mem_cons_self)⟩
  · refine List.perm_iff_count.mpr (fun mid => ?_)
    simp only [pendingOf,first,List.tail_cons,List.nil_append,List.flatMap_cons,List.count_append]
    omega
  · exact fun entry member => inv.blocked entry (List.mem_of_mem_tail member)

/-- A task is taken out of the ready set. -/
theorem Inv.picked (inv : Inv c o n {} s) {t : SimTask} {ready : ReadySet} (taken : s.ready.tasks.Perm (t :: ready.tasks))
    (rng : SimRng) : Inv c o n { held := [t], chosen := [t], loose := t.mids } { s with ready, rng } := by
  refine { inv with world := inv.world.perm taken, books := ?_, ids := inv.ids.perm ?_ }
  · intro ord led found
    rw [inv.books ord led found]
    exact booked_perm ord taken
  · refine List.perm_iff_count.mpr (fun mid => ?_)
    have moved := (taken.flatMap_right (·.mids)).count_eq mid
    simp only [List.flatMap_cons,List.count_append] at moved
    simp only [pendingOf,List.nil_append,List.count_append,moved]
    omega

/-- The chosen task leaves the books. -/
theorem Inv.unbooked {t : SimTask} {held : List SimTask} {loose : List Nat}
    (inv : Inv c o n { held, chosen := [t], loose } s) {led : ActorLedger} (found : s.ledger[t.ord]? = some led) :
    t.app_len ≤ led.queued ∧ Inv c o n { held, loose } { s with
      ledger := s.ledger.modify t.ord (fun led' => { led' with queued := led.queued - t.app_len }) } := by
  have before : led.queued = t.app_len + booked t.ord s.ready.tasks := by
    rw [inv.books t.ord led found,List.singleton_append,booked_cons,if_pos rfl]
  refine ⟨by omega,?_⟩
  let f : ActorLedger → ActorLedger := fun led' => { led' with queued := led.queued - t.app_len }
  obtain ⟨sup,at_,kept⟩ := inv.root
  refine { inv with
    count := (List.length_modify ..).trans inv.count
    world := inv.world.rebooked t.ord _
    books := books_modify t.ord f inv.books (fun other apart => ?_) (fun led' at_ => ?_)
    root := ⟨sup,at_,?_⟩
    totals := ⟨?_,?_,?_⟩ }
  · rw [List.nil_append,List.singleton_append,booked_cons,if_neg (Ne.symm apart),Nat.zero_add]
  · show led.queued - t.app_len = booked t.ord ([] ++ s.ready.tasks)
    rw [List.nil_append]
    omega
  · exact (incs_modify _ _ _ f (fun _ => rfl)).symm ▸ kept
  · exact inv.totals.delivered.trans (sum_untouched (·.delivered) _ _ f (fun _ => rfl)).symm
  · exact inv.totals.consumed.trans (sum_untouched (·.consumed) _ _ f (fun _ => rfl)).symm
  · exact inv.totals.dropped.trans (sum_untouched (·.dropped) _ _ f (fun _ => rfl)).symm

theorem Inv.lose_all {fallen : Option (Nat × Bool)} {held chosen : List SimTask} {loose : List Nat} {granted : Option Nat}
    (mids : List Nat) (inv : Inv c o n { fallen, held, chosen, loose := mids ++ loose, granted } s) :
    Inv c o n { fallen, held, chosen, loose, granted } (mids.foldl Sim.mark_lost s) := by
  induction mids generalizing s with
  | nil => exact inv
  | cons mid mids ih => exact ih { inv with ids := inv.ids.lose }

/-- A task for nobody is discarded. -/
theorem Inv.discard {t : SimTask} (inv : Inv c o n { held := [t], loose := t.mids } s)
    (nobody : s.registry.by_id.lookup t.task.actor_id = none) : Inv c o n {} (s.discard t) := by
  have freed : Inv c o n { loose := t.mids } s := { inv with world := inv.world.dismiss nobody }
  have lost : Inv c o n {} (t.mids.foldl Sim.mark_lost s) :=
    Inv.lose_all t.mids (by rw [List.append_nil]; exact freed)
  let entries := noteOf (fun first => .Discard (.ofNat first) (.ofNat t.app_len) (.ofNat t.ord)) t.mids
  have noted := lost.noted entries (noteOf_plain (fun _ _ _ same => by cases same) t.mids)
    (t.mids.foldl Sim.mark_lost s).stats ⟨rfl,rfl,rfl⟩
  have same : s.discard t = { t.mids.foldl Sim.mark_lost s with
      trace := (t.mids.foldl Sim.mark_lost s).trace ++ entries
      executor := (t.mids.foldl Sim.mark_lost s).executor.arm_crash false } := by
    simp only [Sim.discard,entries,noteOf]
    cases t.mids.head? <;> simp
  rw [same]
  refine { noted with calm := ?_ }
  show (t.mids.foldl Sim.mark_lost s).executor.arm_crash false = {}
  rw [lost.calm]
  rfl

/-! ## Records -/

/-- The world as it will be once `k` more records of actor `ord` are settled. -/
def credited (ord k : Nat) (s : Sim) : Sim :=
  { s with
    ledger := s.ledger.modify ord (fun led => { led with consumed := led.consumed + k })
    stats := { s.stats with processed := s.stats.processed + k } }

theorem credited_zero (ord : Nat) (s : Sim) : credited ord 0 s = s := by
  unfold credited
  rw [show s.ledger.modify ord (fun led => { led with consumed := led.consumed + 0 }) = s.ledger from List.modify_id ..]
  rfl

/-- The identities of the messages records tell of. -/
def midsOf (records : List ExecRecord) : List Nat :=
  records.filterMap (fun record => match record.tag with
    | .Custom mid => some mid.toNat
    | .System => none)

/-- The records of a task tell of its messages. -/
theorem midsOf_mail (id : ActorId) {mids : List Nat} {msgs : List Message} (mail : Mail mids msgs)
    (fits : ∀ mid ∈ mids, mid < 2 ^ 64) : midsOf (msgs.map (recordOf id)) = mids := by
  rcases mail with ⟨rfl,rfl⟩ | ⟨-,priority,rfl⟩
  · rfl
  · induction mids with
    | nil => rfl
    | cons mid mids ih =>
      obtain ⟨tag,tagged,value⟩ := tag_of_app_message priority (fits mid List.mem_cons_self)
      have rest := ih (fun mid member => fits mid (List.mem_cons_of_mem _ member))
      simp only [midsOf,List.map_cons,List.filterMap_cons,recordOf,tagged,value] at rest ⊢
      rw [rest]

/-- The chosen task was executed; its records are still to be settled. -/
theorem Inv.served {t : SimTask} (inv : Inv c o n { held := [t], loose := t.mids } s) (distinct : Distinct s.ledger)
    {led : ActorLedger} (found : s.ledger[t.ord]? = some led) (lives : led.alive = true)
    (addressed : t.task.actor_id = idOf t.ord led) {registry : ActorRegistry}
    (served : Served c.mailbox t.task.actor_id t.task.messages.length s.registry registry) :
    Inv c o n { loose := t.mids } (credited t.ord t.task.messages.length { s with registry, executor := {} }) := by
  let f : ActorLedger → ActorLedger := fun led => { led with consumed := led.consumed + t.task.messages.length }
  obtain ⟨sup,at_,kept⟩ := inv.root
  refine { inv with
    count := (List.length_modify ..).trans inv.count
    world := inv.world.serve distinct found lives addressed served
    books := books_modify t.ord f inv.books (fun _ _ => rfl) (inv.books t.ord)
    root := ⟨sup,at_,?_⟩
    totals := ⟨?_,?_,?_⟩
    calm := rfl }
  · exact (incs_modify _ _ _ f (fun _ => rfl)).symm ▸ kept
  · exact inv.totals.delivered.trans (sum_untouched (·.delivered) _ _ f (fun _ => rfl)).symm
  · have moved := Counting.sum_map_modify (·.consumed) found f
    have before := inv.totals.consumed
    simp only [f] at moved
    show s.stats.processed + t.task.messages.length + s.stats.system_processed = _
    simp only [credited]
    omega
  · exact inv.totals.dropped.trans (sum_untouched (·.dropped) _ _ f (fun _ => rfl)).symm

/-- Settling one record takes it off the credit. -/
theorem credited_consume (ord k : Nat) (s : Sim) :
    credited ord k { s with ledger := s.ledger.modify ord (fun led => { led with consumed := led.consumed + 1 }) } =
      { credited ord (k + 1) s with stats := { s.stats with processed := s.stats.processed + k } } := by
  simp only [credited,List.modify_modify_eq,Function.comp_def]
  have same : (fun led : ActorLedger => { led with consumed := led.consumed + 1 + k }) =
      fun led => { led with consumed := led.consumed + (k + 1) } := by
    funext led
    rw [Nat.add_assoc,Nat.add_comm 1 k]
  rw [same]

/-- The record of an application message is settled. -/
theorem Inv.settled_custom {ord k mid : Nat} {loose : List Nat} (inv : Inv c o n { loose := mid :: loose } (credited ord (k + 1) s))
    (tag target : UInt64) : Inv c o n { loose } (credited ord k { s with
      ledger := s.ledger.modify ord (fun led => { led with consumed := led.consumed + 1 })
      mid_times := s.mid_times.set mid (saturating_succ 32 (timesOf s.mid_times mid))
      stats := { s.stats with processed := s.stats.processed + 1 }
      trace := s.trace ++ [.Process tag target] }) := by
  have grown : 1 ≤ saturating_succ 32 (timesOf s.mid_times mid) ∧
      saturating_succ 32 (timesOf s.mid_times mid) ≤ timesOf s.mid_times mid + 1 := by
    unfold saturating_succ
    omega
  have received : Inv c o n { loose } { credited ord (k + 1) s with
      mid_times := s.mid_times.set mid (saturating_succ 32 (timesOf s.mid_times mid)) } :=
    { inv with ids := inv.ids.receive grown.1 grown.2, size := (List.length_set ..).trans inv.size }
  have noted := received.noted [.Process tag target] (plain_one (fun _ _ same => by cases same))
    { s.stats with processed := s.stats.processed + 1 + k } (by
      refine ⟨rfl,?_,rfl⟩
      simp only [credited]
      omega)
  have same := credited_consume ord k { s with
    mid_times := s.mid_times.set mid (saturating_succ 32 (timesOf s.mid_times mid))
    stats := { s.stats with processed := s.stats.processed + 1 }
    trace := s.trace ++ [.Process tag target] }
  rw [same]
  exact noted

/-- The record of a system message is settled. -/
theorem Inv.settled_system {ord k : Nat} {loose : List Nat} (inv : Inv c o n { loose } (credited ord (k + 1) s))
    (target : UInt64) : Inv c o n { loose } (credited ord k { s with
      ledger := s.ledger.modify ord (fun led => { led with consumed := led.consumed + 1 })
      stats := { s.stats with system_processed := s.stats.system_processed + 1 }
      trace := s.trace ++ [.ProcessSystem target] }) := by
  have noted := inv.noted [.ProcessSystem target] (plain_one (fun _ _ same => by cases same))
    { s.stats with system_processed := s.stats.system_processed + 1, processed := s.stats.processed + k } (by
      refine ⟨rfl,?_,rfl⟩
      simp only [credited]
      omega)
  have same := credited_consume ord k { s with
    stats := { s.stats with system_processed := s.stats.system_processed + 1 }
    trace := s.trace ++ [.ProcessSystem target] }
  rw [same]
  exact noted

/-! ## Crashes -/

/-- The chosen task crashed its actor. -/
theorem Inv.crashed (fits : c.mailbox.capacity < 2 ^ 64) {t : SimTask}
    (inv : Inv c o n { held := [t], loose := t.mids } s) (distinct : Distinct s.ledger) {led : ActorLedger}
    (found : s.ledger[t.ord]? = some led) (lives : led.alive = true) (addressed : t.task.actor_id = idOf t.ord led) :
    Inv c o n { fallen := some (t.ord,false), loose := t.mids } { s with
      registry := (s.registry.set_state t.task.actor_id .Failed).1.on_mailbox t.task.actor_id Mailbox.clear
      executor := {} } :=
  { inv with world := inv.world.crash fits distinct found lives addressed, calm := rfl }

/-- What the crash destroyed enters the ledger. -/
theorem Inv.destroyed {ord : Nat} {loose : List Nat} (inv : Inv c o n { fallen := some (ord,false), loose } s)
    (distinct : Distinct s.ledger) {led : ActorLedger} (found : s.ledger[ord]? = some led) :
    Inv c o n { fallen := some (ord,true), loose } (s.destroy ord 0 led) := by
  let f : ActorLedger → ActorLedger := fun led' =>
    { led' with dropped := led'.dropped + (led.delivered - led.consumed - led.dropped - 0) }
  obtain ⟨sup,at_,kept⟩ := inv.root
  refine { inv with
    count := (List.length_modify ..).trans inv.count
    world := inv.world.settle distinct found
    books := books_modify ord f inv.books (fun _ _ => rfl) (inv.books ord)
    root := ⟨sup,at_,?_⟩
    totals := ⟨?_,?_,?_⟩ }
  · exact (incs_modify _ _ _ f (fun _ => rfl)).symm ▸ kept
  · exact inv.totals.delivered.trans (sum_untouched (·.delivered) _ _ f (fun _ => rfl)).symm
  · exact inv.totals.consumed.trans (sum_untouched (·.consumed) _ _ f (fun _ => rfl)).symm
  · have moved := Counting.sum_map_modify (·.dropped) found f
    have before := inv.totals.dropped
    simp only [f] at moved
    simp only [Sim.destroy]
    omega

/-- A member of the crashed task is accounted for without it. -/
theorem Inv.lost_unprocessed {fallen : Option (Nat × Bool)} {mid : Nat} {loose : List Nat}
    (inv : Inv c o n { fallen, loose := mid :: loose } s) :
    (timesOf s.mid_times mid = 0 → Inv c o n { fallen, loose } (s.mark_lost mid)) ∧
    (timesOf s.mid_times mid ≠ 0 → Inv c o n { fallen, loose } s) :=
  ⟨fun _ => { inv with ids := inv.ids.lose },fun some => { inv with ids := inv.ids.forget (Nat.pos_of_ne_zero some) }⟩

theorem Inv.fallen_led {ord : Nat} {settled : Bool} {loose : List Nat} {granted : Option Nat}
    (inv : Inv c o n { fallen := some (ord,settled), loose, granted } s) :
    ∃ led, s.ledger[ord]? = some led ∧ Fallen s.registry settled ord led ∧ s.actors[ord]? = some (idOf ord led) := by
  obtain ⟨led,found,down⟩ := inv.world.fallen ord settled rfl
  exact ⟨led,found,down,by rw [inv.world.actors,found]; rfl⟩

/-- The report of the crash is answered. -/
theorem Inv.reported (close : Close o) {ord : Nat} (inv : Inv c o n { fallen := some (ord,true) } s) (small : n < 2 ^ 64) :
    match (s.report ord).1 with
    | .ok _ => Inv c o n { fallen := some (ord,true), granted := some ord }
        ((s.report ord).2.traced (.Restart (.ofNat ord) true))
    | .error _ => Inv c o n { fallen := some (ord,true) } ((s.report ord).2.traced (.Restart (.ofNat ord) false)) := by
  obtain ⟨led,found,-,-⟩ := inv.fallen_led
  obtain ⟨sup,at_,kept⟩ := inv.root
  have inside : ord < (incsOf s.ledger).length := by
    simpa [incsOf] using (List.getElem?_eq_some_iff.mp found).1
  have length : (incsOf s.ledger).length = n := by simpa [incsOf] using inv.count
  obtain ⟨sup',answer⟩ := kept.exited close inside (show (incsOf s.ledger).length ≤ 2 ^ 64 by omega) SIM_CRASH_MESSAGE
    s.exits (fun _ => s.outside.ids s.minted)
  simp only [Sim.report,SupervisorTree.handle_child_exit,at_,inv.sameOutside]
  rw [inv.sameOutside] at answer
  rcases answer with ⟨granted,kept'⟩ | ⟨⟨e,refused⟩,kept'⟩
  · simp only [granted]
    exact { inv with sameOutside := rfl, root := ⟨sup',by simp [Sim.traced,at_,granted],kept'⟩ }
  · simp only [refused]
    exact { inv with sameOutside := rfl, root := ⟨sup',by simp [Sim.traced,at_,refused],kept'⟩ }

theorem incsOf_reborn (ledger : List ActorLedger) (ord : Nat) :
    incsOf (ledger.modify ord reborn) = bump ord (incsOf ledger) := by
  refine List.ext_getElem? (fun i => ?_)
  simp only [incsOf,bump,List.getElem?_map,List.getElem?_modify]
  cases ledger[i]? with
  | none => rfl
  | some led =>
    simp only [Option.map_eq_map,Option.map_some]
    split <;> rfl

/-- A restarted actor registers again and is the current incarnation. -/
theorem Inv.respawned {ord : Nat} (inv : Inv c o n { fallen := some (ord,true), granted := some ord } s)
    {led : ActorLedger} (found : s.ledger[ord]? = some led) (distinct : Distinct (s.ledger.modify ord reborn)) :
    ∃ mb s', (({ s with ledger := s.ledger.modify ord reborn } : Sim).retire ord (idOf ord led)).register ord
        (led.incarnation + 1) = (.ok mb,s') ∧ Inv c o n {} (s'.enrol ord (led.incarnation + 1)) := by
  obtain ⟨led₀,found₀,down,-⟩ := inv.fallen_led
  rw [found] at found₀
  cases found₀
  obtain ⟨e,entry,named⟩ := down.entry
  have gone := unregister_gone entry named
  obtain ⟨unregistered,unnamed⟩ := inv.world.respawn_free found distinct gone
  have world := inv.world.respawn found distinct gone
  obtain ⟨sup,at_,kept⟩ := inv.root
  have fresh := register_fresh unregistered unnamed
  let registry := ((s.registry.unregister (idOf ord led)).1.register_named (sim_actor_id ord (led.incarnation + 1))
    (some (actor_name ord (led.incarnation + 1)))).1
  refine ⟨.new (sim_actor_id ord (led.incarnation + 1)) (s.registry.unregister (idOf ord led)).1.mailbox_config,
    { (({ s with ledger := s.ledger.modify ord reborn } : Sim).retire ord (idOf ord led)) with registry },?_,?_⟩
  · simp only [Sim.register,Sim.retire,fresh,registry]
  · refine { inv with
      count := (List.length_modify ..).trans inv.count
      world := world
      books := books_modify ord reborn inv.books (fun _ _ => rfl) (inv.books ord)
      root := ⟨(sup.mark_child_running (supervisor_name ord)).1,?_,?_⟩
      totals := ⟨?_,?_,?_⟩ }
    · simp [Sim.enrol,Sim.retire,at_]
    · have same : ({} : Hand).incs (s.ledger.modify ord reborn) = bump ord (incsOf s.ledger) := incsOf_reborn _ _
      show Kept c.max_restarts o _ (({} : Hand).incs (s.ledger.modify ord reborn)) (s.trace ++ [.Spawn (.ofNat ord)])
      rw [same]
      exact (Kept.marked kept _).traced _ (plain_one (fun _ _ same => by cases same))
    · exact inv.totals.delivered.trans (sum_untouched (·.delivered) _ _ reborn (fun _ => rfl)).symm
    · exact inv.totals.consumed.trans (sum_untouched (·.consumed) _ _ reborn (fun _ => rfl)).symm
    · exact inv.totals.dropped.trans (sum_untouched (·.dropped) _ _ reborn (fun _ => rfl)).symm

/-- An escalated actor is gone for good. -/
theorem Inv.buried {ord : Nat} (inv : Inv c o n { fallen := some (ord,true) } s) (distinct : Distinct s.ledger)
    {led : ActorLedger} (found : s.ledger[ord]? = some led) : Inv c o n {} (s.bury ord (idOf ord led) 0) := by
  obtain ⟨led₀,found₀,down,-⟩ := inv.fallen_led
  rw [found] at found₀
  cases found₀
  obtain ⟨e,entry,named⟩ := down.entry
  obtain ⟨mb,box,-⟩ := down.mailbox
  have present : s.registry.get_mailbox (idOf ord led) = some mb := by
    rw [ActorRegistry.get_mailbox,entry]
    exact box
  let f : ActorLedger → ActorLedger := fun led => { led with dropped := led.dropped + 0, alive := false }
  obtain ⟨sup,at_,kept⟩ := inv.root
  have world := inv.world.bury distinct found (unregister_cleared_gone entry named)
  simp only [Sim.bury,present]
  refine { inv with
    count := (List.length_modify ..).trans inv.count
    world := world
    books := books_modify ord f inv.books (fun _ _ => rfl) (inv.books ord)
    root := ⟨sup,at_,?_⟩
    totals := ⟨?_,?_,?_⟩ }
  · rw [incs_modify _ _ _ f (fun _ => rfl)]
    exact kept.traced _ (plain_one (fun _ _ same => by cases same))
  · exact inv.totals.delivered.trans (sum_untouched (·.delivered) _ _ f (fun _ => rfl)).symm
  · exact inv.totals.consumed.trans (sum_untouched (·.consumed) _ _ f (fun _ => rfl)).symm
  · exact inv.totals.dropped.trans (sum_untouched (·.dropped) _ _ f (fun _ => rfl)).symm

/-- The books of an actor without tasks are empty. -/
theorem booked_unknown {ledger : List ActorLedger} {tasks : List SimTask} (belong : ∀ t ∈ tasks, Belongs ledger t) :
    booked ledger.length tasks = 0 := by
  refine Counting.sum_map_eq_zero _ _ (fun t member => ?_)
  obtain ⟨-,led,found,-⟩ := belong t member
  have inside := (List.getElem?_eq_some_iff.mp found).1
  rw [if_neg (by omega)]

/-- A new actor is registered and supervised. -/
theorem Inv.spawned (inv : Inv c o n {} s) (small : n < 2 ^ 64) :
    ∃ mb s₁ id s₂, s.register n 0 = (.ok mb,s₁) ∧ s₁.supervise n = (.ok id,s₂) ∧ Inv c o (n + 1) {} { s₂ with
      actors := s₂.actors ++ [sim_actor_id n 0]
      ordinals := s₂.ordinals.insert (sim_actor_id n 0).uuid n
      ledger := s₂.ledger ++ [{ incarnation := 0, alive := true }]
      trace := s₂.trace ++ [.Spawn (.ofNat n)] } := by
  have count := inv.count
  subst count
  obtain ⟨unregistered,unnamed⟩ := inv.world.spawn_free small
  have fresh := register_fresh unregistered unnamed
  have world := inv.world.spawn small
  obtain ⟨sup,at_,kept⟩ := inv.root
  have length : (incsOf s.ledger).length = s.ledger.length := List.length_map ..
  obtain ⟨sup',started,kept'⟩ := kept.started (s.outside.ids s.minted)
  have started : sup.start_child { name := supervisor_name s.ledger.length, restart_policy := .Permanent }
      (s.outside.ids s.minted) = (sup',.ok (s.outside.ids s.minted)) := by
    rw [← length]
    exact started
  let registry := (s.registry.register_named (sim_actor_id s.ledger.length 0) (some (actor_name s.ledger.length 0))).1
  refine ⟨.new (sim_actor_id s.ledger.length 0) s.registry.mailbox_config,{ s with registry },s.outside.ids s.minted,
    { s with
      registry
      tree := { s.tree with supervisors := s.tree.supervisors.modify s.root (fun sup => (sup.start_child
        { name := supervisor_name s.ledger.length, restart_policy := .Permanent } (s.outside.ids s.minted)).1) }
      minted := s.minted + 1 },?_,?_,?_⟩
  · simp only [Sim.register,fresh,registry]
  · simp only [Sim.supervise,SupervisorTree.start_child_under,at_,started]
  · refine { inv with
      count := by simp
      world := world
      books := ?_
      delayed := fun later member => ⟨Nat.lt_succ_of_lt (inv.delayed later member).1,(inv.delayed later member).2⟩
      blocked := fun p member => ⟨Nat.lt_succ_of_lt (inv.blocked p member).1,(inv.blocked p member).2⟩
      root := ⟨sup',by simp [at_,started],?_⟩
      totals := ⟨?_,?_,?_⟩ }
    · intro ord led found
      rcases appended_led found with ⟨old,-⟩ | ⟨rfl,rfl⟩
      · exact inv.books ord led old
      · exact (booked_unknown inv.world.tasks).symm
    · have same : ({} : Hand).incs (s.ledger ++ [{ incarnation := 0, alive := true }]) = incsOf s.ledger ++ [0] := by
        simp [Hand.incs,incsOf]
      rw [same]
      exact kept'.traced _ (plain_one (fun _ _ same => by cases same))
    · simpa using inv.totals.delivered
    · simpa using inv.totals.consumed
    · simpa using inv.totals.dropped

/-- The world before the first spawn. -/
theorem inv_start (seed : UInt64) (c : SimConfig) (draws : Nat → UInt64) (o : Outside) :
    Inv c o 0 {} (.start seed c draws o) where
  sameConfig := rfl
  sameOutside := rfl
  count := rfl
  world := consistent_new c.mailbox
  books := fun ord led found => by cases found
  ids := {
    sizes := by simp [Sim.start]
    room := Nat.zero_le _
    issued := fun item member => by cases member
    unissued := by
      intro item _
      simp only [timesOf,Sim.start,List.getElem?_replicate]
      split <;> rfl
    covered := fun item below => by cases below
    single := by
      intro _ item
      simp only [timesOf,Sim.start,List.getElem?_replicate,pendingOf]
      split <;> simp [ReadySet.tasks] }
  size := by simp [Sim.start]
  delayed := fun later member => by cases member
  blocked := fun p member => by cases member
  root := ⟨.new (o.ids 0) (.OneForOne c.max_restarts window),AList.lookup_insert _,kept_new _ _ _⟩
  totals := ⟨rfl,rfl,rfl⟩
  calm := rfl

end
end ActorKit.Sim.Accounts
