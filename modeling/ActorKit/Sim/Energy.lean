import Mathlib.Algebra.BigOperators.Group.List.Basic
import Mathlib.Data.List.Induction
import ActorKit.Sim.Audits

/-!
# The backlog of the simulation

What waits in a simulated world: delayed deliveries, parked deliveries and ready
tasks. Every item has a toll that falls whenever the item moves on, and the task
of an application message costs more than the start message that its crash may
bring about. So the energy of the backlog falls with every move, except for a
delivery that is parked again.
-/

namespace ActorKit.Sim.Energy
open ActorKit.mailbox ActorKit.registry ActorKit.queue ActorKit.scheduler ActorKit.sim ActorKit.supervisor
open ActorKit.Program
open ActorKit.Sim.Audits (longest)

/-- What waits, how far the workload and the clock are, and how far a delivery can
    be postponed. -/
structure Backlog where
  delayed : List DeliverLater
  blocked : List DeliverPayload
  ready : ReadySet
  next : Nat
  total : Nat
  tick : Nat
  reach : Nat

def backlog (s : Sim) : Backlog where
  delayed := s.delayed
  blocked := s.blocked
  ready := s.ready
  next := s.next_mid
  total := s.mid_times.length
  tick := s.tick
  reach := longest s.config

/-- What an item has still to pay: ready tasks least, delayed deliveries most. -/
def toll (place : Nat) (mids : List Nat) : Nat := place + if mids.isEmpty then 1 else 3

def Backlog.energy (b : Backlog) : Nat :=
  (b.delayed.map (fun later => toll 2 later.payload.mids)).sum + (b.blocked.map (fun p => toll 1 p.mids)).sum +
    (b.ready.tasks.map (fun t => toll 0 t.mids)).sum

/-- The messages still to be injected. -/
def Backlog.left (b : Backlog) : Nat := b.total - b.next

/-- The ticks until the last of the delayed deliveries is due. -/
def Backlog.wait (b : Backlog) : Nat := (b.delayed.map (fun later => later.due - b.tick)).foldr max 0

/-- The rounds that are enough for a backlog: one for every unit of its energy and
    every tick to wait, and while the budget lasts also those that the messages to
    come bring with them. -/
def Backlog.distance (b : Backlog) : Nat :=
  if b.left = 0 then b.energy + b.wait else b.energy + b.reach + 11 * b.left

theorem wait_le {b : Backlog} {n : Nat} : b.wait ≤ n ↔ ∀ later ∈ b.delayed, later.due ≤ b.tick + n := by
  unfold Backlog.wait
  induction b.delayed with
  | nil => simp
  | cons first rest ih =>
    rw [List.map_cons,List.foldr_cons,Nat.max_le,ih,List.forall_mem_cons]
    exact and_congr_left' (by omega)

/-! ## The ready set -/

/-- The queued messages of one actor. -/
def queuedFor (key : BitVec 128) (tasks : List SimTask) : Nat :=
  (tasks.map (fun t => if actor_key t.task.actor_id = key then t.app_len else 0)).sum

/-- The ready set counts what it holds. -/
def Tallied (set : ReadySet) : Prop := ∀ key, (set.queued_msgs.lookup key).getD 0 = queuedFor key set.tasks

theorem queuedFor_cons (key : BitVec 128) (t : SimTask) (tasks : List SimTask) :
    queuedFor key (t :: tasks) = (if actor_key t.task.actor_id = key then t.app_len else 0) + queuedFor key tasks := rfl

theorem queuedFor_perm (key : BitVec 128) {tasks tasks' : List SimTask} (same : tasks.Perm tasks') :
    queuedFor key tasks = queuedFor key tasks' := (same.map _).sum_eq

theorem push_tallied {set : ReadySet} (tallied : Tallied set) (t : SimTask) : Tallied (set.push t) := by
  intro key
  have counts : (set.push t).queued_msgs = set.queued_msgs.insert (actor_key t.task.actor_id)
      ((set.queued_msgs.lookup (actor_key t.task.actor_id)).getD 0 + t.app_len) := by
    unfold ReadySet.push
    split <;> rfl
  rw [counts,queuedFor_perm key (set.push_tasks t),queuedFor_cons,Dict.lookup_insert_ite,← tallied key]
  by_cases same : key = actor_key t.task.actor_id
  · subst same
    simp
    omega
  · simp [same,Ne.symm same]

/-- What a selection leaves of the records. -/
theorem select_records {set rest : ReadySet} {policy : SchedulingPolicy} {rng rng' : SimRng} {t : SimTask}
    (selects : set.select policy rng = .ok (some (t,rest),rng')) :
    rest.last_served = set.last_served ∧ rest.queued_msgs = set.queued_msgs := by
  have removes : ∀ {idx : Nat}, set.remove idx = some (t,rest) →
      rest.last_served = set.last_served ∧ rest.queued_msgs = set.queued_msgs := by
    intro idx removed
    obtain ⟨found,-,equal⟩ := Option.map_eq_some_iff.mp removed
    cases equal
    exact ⟨rfl,rfl⟩
  unfold ReadySet.select at selects
  split at selects
  · cases selects
    exact ⟨rfl,rfl⟩
  · split at selects
    · exact removes (Prod.mk.inj (Except.ok.inj selects)).1
    · split at selects
      · cases selects
      · obtain ⟨⟨idx,rng₂⟩,-,selects⟩ := bind_ok selects
        exact removes (Prod.mk.inj (Except.ok.inj selects)).1
    · split at selects
      · cases selects
      · exact removes (Prod.mk.inj (Except.ok.inj selects)).1

/-- A pick is a selection that is entered in the records. -/
theorem pick_selects {set left : ReadySet} {policy : SchedulingPolicy} {rng rng' : SimRng} {tick : Nat} {t : SimTask}
    (picks : set.pick policy rng tick = .ok (some t,left,rng')) :
    ∃ rest, set.select policy rng = .ok (some (t,rest),rng') ∧
      left = { rest with
        last_served := set.last_served.insert (actor_key t.task.actor_id) tick
        queued_msgs := set.queued_msgs.modify (actor_key t.task.actor_id) (· - t.app_len) } := by
  unfold ReadySet.pick at picks
  obtain ⟨⟨selected,rng₁⟩,selects,picks⟩ := bind_ok picks
  match selected with
  | none => cases picks
  | some (picked,rest) =>
    cases picks
    have records := select_records selects
    exact ⟨rest,selects,by rw [records.1,records.2]⟩

theorem pick_tallied {set left : ReadySet} {policy : SchedulingPolicy} {rng rng' : SimRng} {tick : Nat} {t : SimTask}
    (tallied : Tallied set) (picks : set.pick policy rng tick = .ok (some t,left,rng')) : Tallied left := by
  intro key
  have before := tallied key
  rw [queuedFor_perm key (ReadySet.pick_tasks picks),queuedFor_cons] at before
  obtain ⟨rest,-,rfl⟩ := pick_selects picks
  rw [Dict.lookup_modify]
  by_cases same : key = actor_key t.task.actor_id
  · subst same
    simp only [if_true] at before ⊢
    cases found : set.queued_msgs.lookup (actor_key t.task.actor_id) with
    | none =>
      rw [found,Option.getD_none] at before
      simp
      omega
    | some count =>
      rw [found,Option.getD_some] at before
      simp
      omega
  · simp only [same,Ne.symm same,if_false,Nat.zero_add] at before ⊢
    exact before

/-- An empty ready set counts nothing. -/
theorem total_of_empty {set : ReadySet} (tallied : Tallied set) (empty : set.tasks = []) : set.total_queued_msgs = 0 := by
  refine List.sum_eq_zero (fun count member => ?_)
  obtain ⟨⟨key,value⟩,listed,rfl⟩ := List.mem_map.mp member
  have counted := tallied key
  rw [(Dict.mem_items _ key value).mp listed,empty] at counted
  exact counted

/-! ## Picks -/

/-- One turn of the search of `least_recent`. -/
def closer (set : ReadySet) (best : Option (Nat × Nat)) (e : SimTask × Nat) : Option (Nat × Nat) :=
  match best with
  | none => some (set.served e.1,e.2)
  | some (least,_) => if set.served e.1 < least then some (set.served e.1,e.2) else best

/-- What the search has found among the tasks it has seen: the first of those
    served least recently. -/
def Nearest (set : ReadySet) (tasks : List SimTask) : Option (Nat × Nat) → Prop
  | none => tasks = []
  | some (least,idx) => ∃ front t rest, tasks = front ++ t :: rest ∧ front.length = idx ∧ set.served t = least ∧
      (∀ t' ∈ front, least < set.served t') ∧ ∀ t' ∈ rest, least ≤ set.served t'

theorem closer_found (set : ReadySet) (tasks : List SimTask) :
    Nearest set tasks (tasks.zipIdx.foldl (closer set) none) := by
  induction tasks using List.reverseRecOn with
  | nil => rfl
  | append_singleton tasks t ih =>
    rw [List.zipIdx_append,List.foldl_append]
    cases best : tasks.zipIdx.foldl (closer set) none with
    | none =>
      rw [best] at ih
      have none : tasks = [] := ih
      subst none
      exact ⟨[],t,[],rfl,rfl,rfl,by simp,by simp⟩
    | some found =>
      obtain ⟨least,idx⟩ := found
      rw [best] at ih
      obtain ⟨front,t₀,rest,split,place,served,before,after⟩ := ih
      by_cases nearer : set.served t < least
      · have turn : closer set (some (least,idx)) (t,0 + tasks.length) = some (set.served t,0 + tasks.length) := if_pos nearer
        rw [List.zipIdx_singleton,List.foldl_cons,List.foldl_nil,turn]
        refine ⟨tasks,t,[],rfl,by simp,rfl,fun t' member => ?_,by simp⟩
        rw [split] at member
        rcases List.mem_append.mp member with earlier | later
        · exact Nat.lt_trans nearer (before t' earlier)
        · rcases List.mem_cons.mp later with rfl | later
          · exact Nat.lt_of_lt_of_eq nearer served.symm
          · exact Nat.lt_of_lt_of_le nearer (after t' later)
      · have turn : closer set (some (least,idx)) (t,0 + tasks.length) = some (least,idx) := if_neg nearer
        rw [List.zipIdx_singleton,List.foldl_cons,List.foldl_nil,turn]
        refine ⟨front,t₀,rest ++ [t],by simp [split],place,served,before,fun t' member => ?_⟩
        rcases List.mem_append.mp member with earlier | later
        · exact after t' earlier
        · rw [List.mem_singleton.mp later]
          exact Nat.le_of_not_lt nearer

theorem least_recent_nearest (set : ReadySet) : Nearest set set.ready set.least_recent := by
  have same : set.least_recent = set.ready.zipIdx.foldl (closer set) none := by
    unfold ReadySet.least_recent
    congr
  rw [same]
  exact closer_found set set.ready

theorem least_recent_found (set : ReadySet) :
    match set.least_recent with
    | none => set.ready = []
    | some (_,idx) => idx < set.ready.length := by
  have found := least_recent_nearest set
  split
  · next none =>
    rw [none] at found
    exact found
  · next least idx at_ =>
    rw [at_] at found
    obtain ⟨front,t,rest,split,rfl,-⟩ := found
    simp [split]

/-- Where there is a task, a pick takes one. -/
theorem pick_some {set left : ReadySet} {policy : SchedulingPolicy} {rng rng' : SimRng} {tick : Nat}
    (picks : set.pick policy rng tick = .ok (none,left,rng')) : set.tasks = [] := by
  unfold ReadySet.pick at picks
  obtain ⟨⟨selected,rng₁⟩,selects,picks⟩ := bind_ok picks
  match selected with
  | some (picked,rest) => cases picks
  | none =>
    have beyond : ∀ {idx : Nat}, set.remove idx = none → set.ready.length ≤ idx := by
      intro idx removed
      exact List.getElem?_eq_none_iff.mp (Option.map_eq_none_iff.mp removed)
    unfold ReadySet.select at selects
    split at selects
    · cases selects
    · next nothing =>
      have empty : set.ready = [] → set.tasks = [] := fun none => by rw [ReadySet.tasks,nothing,none]; rfl
      refine empty ?_
      split at selects
      · exact List.length_eq_zero_iff.mp (Nat.le_zero.mp (beyond (Prod.mk.inj (Except.ok.inj selects)).1))
      · split at selects
        · next none => exact List.length_eq_zero_iff.mp none
        · obtain ⟨⟨idx,rng₂⟩,below,selects⟩ := bind_ok selects
          have := below_lt below
          have := beyond (Prod.mk.inj (Except.ok.inj selects)).1
          omega
      · have found := least_recent_found set
        split at selects
        · next none =>
          rw [none] at found
          exact found
        · next least idx at_ =>
          rw [at_] at found
          have := beyond (Prod.mk.inj (Except.ok.inj selects)).1
          simp only at found
          omega

/-! ## Moves -/

/-- Deliveries are small and soon due, the ready set counts what it holds and the
    budget is kept. -/
structure Tidy (b : Backlog) : Prop where
  delayed : ∀ later ∈ b.delayed, later.payload.msgs.length ≤ 3
  blocked : ∀ p ∈ b.blocked, p.msgs.length ≤ 3
  tallied : Tallied b.ready
  soon : ∀ later ∈ b.delayed, later.due ≤ b.tick + b.reach
  within : b.next ≤ b.total

/-- What can become of a delivery; it is parked only where there is no room. -/
inductive Attempted (roomy : Prop) (b : Backlog) (ord : Nat) (msgs : List Message) (mids : List Nat) : Backlog → Prop
  | rejected : Attempted roomy b ord msgs mids b
  | parked (tight : ¬roomy) :
    Attempted roomy b ord msgs mids { b with blocked := b.blocked ++ [{ ord, msgs, mids, was_blocked := true }] }
  | delivered (task : Task) : Attempted roomy b ord msgs mids { b with ready := b.ready.push { ord, task, mids } }

section
variable {roomy : Prop} {b b' : Backlog} {ord : Nat} {msgs : List Message} {mids : List Nat}

theorem energy_push (b : Backlog) (t : SimTask) :
    { b with ready := b.ready.push t : Backlog }.energy = b.energy + toll 0 t.mids := by
  have sum := ((b.ready.push_tasks t).map (fun t => toll 0 t.mids)).sum_eq
  simp only [Backlog.energy,sum,List.map_cons,List.sum_cons]
  omega

theorem energy_park (b : Backlog) (p : DeliverPayload) :
    { b with blocked := b.blocked ++ [p] : Backlog }.energy = b.energy + toll 1 p.mids := by
  simp only [Backlog.energy,List.map_append,List.sum_append,List.map_cons,List.map_nil,List.sum_singleton]
  omega

theorem toll_one (mids : List Nat) : toll 1 mids = toll 0 mids + 1 := by
  unfold toll
  omega

theorem toll_two (mids : List Nat) : toll 2 mids = toll 1 mids + 1 := by
  unfold toll
  omega

/-- Where nothing is to pay there is nothing. -/
theorem nil_of_tolls {α : Type} {items : List α} (place : Nat) (mids : α → List Nat)
    (free : (items.map (fun item => toll place (mids item))).sum = 0) : items = [] := by
  cases items with
  | nil => rfl
  | cons item items =>
    simp only [List.map_cons,List.sum_cons,toll] at free
    split at free <;> omega

namespace Attempted
variable (attempted : Attempted roomy b ord msgs mids b')
include attempted

theorem energy_le : b'.energy ≤ b.energy + toll 1 mids := by
  cases attempted with
  | rejected => exact Nat.le_add_right _ _
  | parked tight => exact Nat.le_of_eq (energy_park b _)
  | delivered task =>
    rw [energy_push,toll_one]
    exact Nat.add_le_add_left (Nat.le_succ _) _

theorem energy_lt (room : roomy) : b'.energy < b.energy + toll 1 mids := by
  rw [toll_one]
  cases attempted with
  | rejected => omega
  | parked tight => exact absurd room tight
  | delivered task =>
    rw [energy_push]
    exact Nat.add_lt_add_left (Nat.lt_succ_self _) _

theorem tidy (before : Tidy b) (small : msgs.length ≤ 3) : Tidy b' := by
  cases attempted with
  | rejected => exact before
  | parked tight =>
    refine { before with blocked := fun p member => ?_ }
    rcases List.mem_append.mp member with old | new
    · exact before.blocked p old
    · rw [List.mem_singleton.mp new]
      exact small
  | delivered task => exact { before with tallied := push_tallied before.tallied _ }

end Attempted
end

/-- No new messages, and no time passes. -/
structure Onward (b b' : Backlog) : Prop where
  next : b'.next = b.next
  total : b'.total = b.total
  tick : b'.tick = b.tick
  reach : b'.reach = b.reach

theorem Onward.refl (b : Backlog) : Onward b b := ⟨rfl,rfl,rfl,rfl⟩

theorem Onward.trans {b b' b'' : Backlog} (first : Onward b b') (second : Onward b' b'') : Onward b b'' :=
  ⟨second.next.trans first.next,second.total.trans first.total,second.tick.trans first.tick,second.reach.trans first.reach⟩

theorem Attempted.onward {roomy : Prop} {b b' : Backlog} {ord : Nat} {msgs : List Message} {mids : List Nat}
    (attempted : Attempted roomy b ord msgs mids b') : Onward b b' ∧ b'.delayed = b.delayed := by
  cases attempted <;> exact ⟨⟨rfl,rfl,rfl,rfl⟩,rfl⟩

/-! ## Methods -/

/-- The mailbox of the target, if it has one, has room for these messages. -/
def Roomy (s : Sim) (ord : Nat) (msgs : List Message) : Prop :=
  ∀ id state mailbox, s.actors[ord]? = some id → s.registry.get_state id = some state →
    s.registry.get_mailbox id = some mailbox → msgs.length ≤ mailbox.remaining_capacity

theorem reject_keeps (ord : Nat) (reason : RejectReason) (mids : List Nat) (s : Sim) :
    backlog (s.reject ord reason mids) = backlog s := by
  unfold Sim.reject
  induction mids generalizing s with
  | nil => rfl
  | cons mid mids ih => exact ih _

theorem attempt_moves (roomy : Prop) (b : Backlog) (ord : Nat) (msgs : List Message) (mids : List Nat) (was_blocked : Bool) :
    Ensures (fun s => backlog s = b ∧ (roomy → Roomy s ord msgs)) (attempt_delivery ord msgs mids was_blocked)
      (fun _ s => Attempted roomy b ord msgs mids (backlog s)) := by
  unfold attempt_delivery
  refine .get_bind (fun s₀ before => .lift_bind (fun id current => ?_))
  obtain ⟨rfl,room⟩ := before
  have rejects : Ensures (fun s => s = s₀) (modify (·.reject ord .DeadTarget mids) : SimM Unit)
      (fun _ s => Attempted roomy (backlog s₀) ord msgs mids (backlog s)) := by
    refine .modify ?_
    rintro s rfl
    rw [reject_keeps]
    exact .rejected
  have delivers : ∀ state, s₀.registry.get_state id = some state → Ensures (fun s => s = s₀)
      (do
        let mailbox ← lift (expect "live ord has a mailbox" (s₀.registry.get_mailbox id))
        if mailbox.remaining_capacity < msgs.length then modify (·.park ord msgs mids was_blocked)
        else
          let mailbox ← lift (push_all mailbox msgs)
          let message ← lift (index msgs 0)
          let _ ← lift (index s₀.ledger ord)
          modify (·.deliver ord id mailbox (task_of id message (msgs.drop 1)) mids was_blocked) : SimM Unit)
      (fun _ s => Attempted roomy (backlog s₀) ord msgs mids (backlog s)) := by
    intro state registered
    refine .lift_bind (fun mailbox found => ?_)
    split
    · next tight =>
      refine .modify ?_
      rintro s rfl
      refine .parked (fun holds => ?_)
      have present : s.registry.get_mailbox id = some mailbox := by
        cases box : s.registry.get_mailbox id with
        | none => rw [box] at found; cases found
        | some mb => rw [box] at found; cases found; rfl
      have at_ : s.actors[ord]? = some id := by
        unfold index at current
        split at current
        · next found => cases current; exact found
        · cases current
      have := room holds id state mailbox at_ registered present
      omega
    · refine .lift_bind (fun mb' _ => .lift_bind (fun message _ => .lift_bind (fun led _ => .modify ?_)))
      rintro s rfl
      exact .delivered _
  split
  · exact rejects
  · exact rejects
  · exact rejects
  · next state => exact delivers _ state
  · next state => exact delivers _ state
  · next state => exact delivers _ state

/-- An attempt on any mailbox. -/
theorem attempt_any (b : Backlog) (ord : Nat) (msgs : List Message) (mids : List Nat) (was_blocked : Bool) :
    Ensures (fun s => backlog s = b) (attempt_delivery ord msgs mids was_blocked)
      (fun _ s => Attempted False b ord msgs mids (backlog s)) :=
  (attempt_moves False b ord msgs mids was_blocked).weaken (fun _ before => ⟨before,False.elim⟩) (fun _ _ after => after)

/-! ### Pending deliveries -/

/-- The deliveries that were due have moved on, if there were any. -/
structure Delivered (b b' : Backlog) : Prop where
  onward : Onward b b'
  tidy : Tidy b → Tidy b'
  delayed : b'.delayed <:+ b.delayed
  moved : b' = b ∨ b'.energy < b.energy
  due : ∀ later ∈ b'.delayed.head?, b'.tick < later.due

theorem Delivered.energy_le {b b' : Backlog} (delivered : Delivered b b') : b'.energy ≤ b.energy := by
  rcases delivered.moved with same | less
  · rw [same]
  · exact Nat.le_of_lt less

theorem next_due_none {s : Sim} (nothing : s.next_due = none) : ∀ later ∈ (backlog s).delayed.head?, (backlog s).tick < later.due := by
  intro later first
  unfold Sim.next_due at nothing
  show s.tick < later.due
  have delayed : s.delayed.head? = some later := first
  cases waiting : s.delayed with
  | nil =>
    rw [waiting] at delayed
    cases delayed
  | cons head rest =>
    rw [waiting] at nothing delayed
    cases delayed
    simp only at nothing
    split at nothing
    · next early => exact early
    · cases nothing

theorem next_due_some {s : Sim} {later : DeliverLater} (due : s.next_due = some later) : ∃ rest, s.delayed = later :: rest := by
  unfold Sim.next_due at due
  split at due
  · cases due
  · next head rest waiting =>
    split at due
    · cases due
    · cases due
      exact ⟨rest,waiting⟩

theorem deliver_loop_moves (turns : Nat) (b : Backlog) :
    Ensures (fun s => backlog s = b) (deliver_loop turns) (fun _ s => Delivered b (backlog s)) := by
  have ends : ∀ s₀ : Sim, s₀.next_due = none →
      Ensures (fun s => s = s₀) (pure () : SimM Unit) (fun _ s => Delivered (backlog s₀) (backlog s)) := by
    intro s₀ nothing
    refine .pure _ ?_
    rintro s rfl
    exact ⟨.refl _,id,List.suffix_rfl,.inl rfl,next_due_none nothing⟩
  induction turns generalizing b with
  | zero =>
    refine .get_bind (fun s₀ same => ?_)
    obtain rfl := same
    cases nothing : s₀.next_due with
    | none => exact ends s₀ nothing
    | some later => exact .throw _
  | succ turns ih =>
    refine .get_bind (fun s₀ same => ?_)
    obtain rfl := same
    cases due : s₀.next_due with
    | none => exact ends s₀ due
    | some later =>
      obtain ⟨rest,waiting⟩ := next_due_some due
      have popped : (backlog s₀).energy = { backlog s₀ with delayed := rest : Backlog }.energy + toll 2 later.payload.mids := by
        simp only [Backlog.energy,backlog,waiting,List.map_cons,List.sum_cons]
        omega
      refine .bind (fun _ s => backlog s = { backlog s₀ with delayed := rest }) (.modify ?_) (fun _ => ?_)
      · rintro s rfl
        simp only [backlog,waiting,List.tail_cons]
      refine .bind _ (attempt_any _ _ _ _ _) (fun _ => .at_state (fun s₁ attempted => ?_))
      refine (ih (backlog s₁)).weaken (fun s same => by rw [same]) (fun _ s after => ?_)
      have paid := attempted.energy_le
      have step := toll_two later.payload.mids
      have dropped : rest <:+ (backlog s₀).delayed := by
        show rest <:+ s₀.delayed
        rw [waiting]
        exact List.suffix_cons _ _
      have onward : Onward (backlog s₀) (backlog s₁) := ⟨attempted.onward.1.next,attempted.onward.1.total,
        attempted.onward.1.tick,attempted.onward.1.reach⟩
      refine ⟨onward.trans after.onward,fun tidy => after.tidy ?_,?_,.inr ?_,after.due⟩
      · have listed : later ∈ (backlog s₀).delayed := by
          show later ∈ s₀.delayed
          rw [waiting]
          exact List.mem_cons_self
        exact attempted.tidy { tidy with
          delayed := fun l member => tidy.delayed l (dropped.subset member)
          soon := fun l member => tidy.soon l (dropped.subset member) } (tidy.delayed later listed)
      · have shorter := after.delayed
        rw [attempted.onward.2] at shorter
        exact shorter.trans dropped
      · rcases after.moved with same | less
        · rw [same]
          omega
        · omega

theorem deliver_due_moves (b : Backlog) :
    Ensures (fun s => backlog s = b) deliver_due (fun _ s => Delivered b (backlog s)) :=
  .get_bind (fun _ same => (deliver_loop_moves _ b).weaken (fun _ here => here ▸ same) (fun _ _ after => after))

/-- Some parked deliveries were tried again, and have moved on or are parked as
    before. -/
structure Retried (b b' : Backlog) : Prop where
  onward : Onward b b'
  delayed : b'.delayed = b.delayed
  blocked : b'.blocked.length ≤ b.blocked.length
  tidy : Tidy b → Tidy b'
  moved : b'.energy < b.energy ∨ b'.energy = b.energy ∧ b'.ready = b.ready

/-- One parked delivery is tried again. -/
theorem retried_of {roomy : Prop} {b b' : Backlog} {p : DeliverPayload} {rest : List DeliverPayload}
    (waiting : b.blocked = p :: rest) (attempted : Attempted roomy { b with blocked := rest } p.ord p.msgs p.mids b') :
    Retried b b' ∧ (roomy → b'.energy < b.energy) := by
  have popped : b.energy = { b with blocked := rest : Backlog }.energy + toll 1 p.mids := by
    simp only [Backlog.energy,waiting,List.map_cons,List.sum_cons]
    omega
  obtain ⟨⟨next,total,tick,reach⟩,delayed⟩ := attempted.onward
  refine ⟨⟨⟨next,total,tick,reach⟩,delayed,?_,fun tidy => ?_,?_⟩,fun room => ?_⟩
  · rw [waiting]
    cases attempted <;> simp
  · refine attempted.tidy { tidy with blocked := fun q member => tidy.blocked q ?_ } (tidy.blocked p ?_)
    · rw [waiting]
      exact List.mem_cons_of_mem _ member
    · rw [waiting]
      exact List.mem_cons_self
  · have step := toll_one p.mids
    cases attempted with
    | rejected => exact .inl (by omega)
    | parked tight => exact .inr ⟨(energy_park _ _).trans popped.symm,rfl⟩
    | delivered task =>
      left
      rw [energy_push,popped]
      exact Nat.add_lt_add_left (by show toll 0 p.mids < _; omega) _
  · rw [popped]
    exact attempted.energy_lt room

theorem Retried.trans {b b' b'' : Backlog} (first : Retried b b') (second : Retried b' b'') : Retried b b'' where
  onward := first.onward.trans second.onward
  delayed := second.delayed.trans first.delayed
  blocked := second.blocked.trans first.blocked
  tidy := second.tidy ∘ first.tidy
  moved := by
    rcases first.moved with less | ⟨same,ready⟩ <;> rcases second.moved with less' | ⟨same',ready'⟩
    · exact .inl (less'.trans less)
    · exact .inl (same' ▸ less)
    · exact .inl (same ▸ less')
    · exact .inr ⟨same'.trans same,ready'.trans ready⟩

theorem Retried.energy_le {b b' : Backlog} (retried : Retried b b') : b'.energy ≤ b.energy := by
  rcases retried.moved with less | ⟨same,-⟩ <;> omega

theorem retry_loop_moves (attempts : Nat) (roomy : Prop) (b : Backlog) :
    Ensures (fun s => backlog s = b ∧ (roomy → ∀ p ∈ s.blocked.head?, Roomy s p.ord p.msgs)) (retry_loop attempts)
      (fun _ s => Retried b (backlog s) ∧ (roomy → 0 < attempts → (backlog s).energy < b.energy)) := by
  induction attempts generalizing b roomy with
  | zero =>
    refine .pure _ ?_
    rintro s ⟨rfl,-⟩
    exact ⟨⟨.refl _,rfl,Nat.le_refl _,id,.inr ⟨rfl,rfl⟩⟩,fun _ none => by cases none⟩
  | succ attempts ih =>
    refine .get_bind (fun s₀ before => .lift_bind (fun p head => ?_))
    obtain ⟨rfl,room⟩ := before
    obtain ⟨rest,waiting⟩ : ∃ rest, s₀.blocked = p :: rest := by
      cases blocked : s₀.blocked with
      | nil => rw [blocked] at head; cases head
      | cons q rest => rw [blocked] at head; cases head; exact ⟨rest,rfl⟩
    refine .bind (fun _ s => backlog s = { backlog s₀ with blocked := rest } ∧ (roomy → Roomy s p.ord p.msgs)) (.modify ?_) ?_
    · rintro s rfl
      refine ⟨by simp only [backlog,waiting,List.tail_cons],fun holds => ?_⟩
      exact room holds p (by rw [waiting]; rfl)
    refine fun _ => .bind _ (attempt_moves roomy _ _ _ _ _) (fun _ => .at_state (fun s₁ attempted => ?_))
    obtain ⟨first,strict⟩ := retried_of waiting attempted
    refine (ih False (backlog s₁)).weaken (fun s same => ⟨by rw [same],False.elim⟩) (fun _ s after => ?_)
    refine ⟨first.trans after.1,fun holds _ => ?_⟩
    have := strict holds
    have := after.1.energy_le
    omega

theorem retry_blocked_moves (roomy : Prop) (b : Backlog) :
    Ensures (fun s => backlog s = b ∧ (roomy → 0 < s.config.blocked_retries_per_tick.toNat ∧ b.blocked ≠ [] ∧
        ∀ p ∈ s.blocked.head?, Roomy s p.ord p.msgs)) retry_blocked
      (fun _ s => Retried b (backlog s) ∧ (roomy → (backlog s).energy < b.energy)) := by
  refine .get_bind (fun s₀ before => ?_)
  obtain ⟨rfl,room⟩ := before
  refine (retry_loop_moves _ roomy (backlog s₀)).weaken ?_ (fun _ s after => ⟨after.1,fun holds => after.2 holds ?_⟩)
  · rintro s rfl
    exact ⟨rfl,fun holds => (room holds).2.2⟩
  · obtain ⟨some_,waiting,-⟩ := room holds
    have : s₀.blocked.length ≠ 0 := fun none => waiting (List.length_eq_zero_iff.mp none)
    omega

/-! ### Tasks -/

theorem draw_keeps {α : Type} (f : SimRng → Except Failure (α × SimRng)) : Keeps backlog (draw f) :=
  .get_bind (fun _ => .lift_bind (fun _ => .bind (.modify (fun _ => rfl)) (fun _ => .pure _)))

theorem lose_unprocessed_keeps (mid : Nat) : Keeps backlog (lose_unprocessed mid) :=
  .get_bind (fun _ => .lift_bind (fun _ => .ite (.modify (fun _ => rfl)) (.pure _)))

theorem settle_crash_keeps (ord : Nat) (task_mids : List Nat) : Keeps backlog (settle_crash ord task_mids) := by
  refine .get_bind (fun s => .lift_bind (fun id => .lift_bind (fun led => .bind (.modify (fun _ => rfl)) (fun _ => ?_))))
  exact .bind (.forM _ lose_unprocessed_keeps) (fun _ => .modify (fun _ => rfl))

theorem kill_keeps (ord : Nat) : Keeps backlog (kill ord) :=
  .get_bind (fun _ => .lift_bind (fun _ => .lift_bind (fun _ => .modify (fun _ => rfl))))

theorem settle_record_keeps (record : ExecRecord) : Keeps backlog (settle_record record) := by
  refine .get_bind (fun s => .lift_bind (fun ord => .lift_bind (fun _ => .bind (.modify (fun _ => rfl)) (fun _ => ?_))))
  cases record.tag with
  | Custom mid => exact .lift_bind (fun _ => .modify (fun s => by simp [backlog]))
  | System => exact .modify (fun _ => rfl)

theorem run_task_keeps (task : Task) (crash : Bool) : Keeps backlog (run_task task crash) :=
  .get_bind (fun _ => .lift_bind (fun _ => .bind (.modify (fun _ => rfl)) (fun _ => .pure _)))

theorem discard_keeps (t : SimTask) (s : Sim) : backlog (s.discard t) = backlog s := by
  have marks : ∀ (mids : List Nat) (s : Sim), backlog (mids.foldl Sim.mark_lost s) = backlog s := by
    intro mids
    induction mids with
    | nil => exact fun _ => rfl
    | cons mid mids ih => exact fun s => ih (s.mark_lost mid)
  exact marks t.mids s

/-- A restart brings one start message. -/
theorem respawn_moves (ord : Nat) (b : Backlog) :
    Ensures (fun s => backlog s = b) (respawn ord) (fun _ s => Attempted False b ord [start_message] [] (backlog s)) := by
  refine .get_bind (fun s₀ same => .lift_bind (fun led _ => .bind (fun _ s => backlog s = b) (.modify ?_) (fun _ => ?_)))
  · rintro s rfl
    exact same
  refine .lift_bind (fun old _ => .bind (fun _ s => backlog s = b) (.modify (fun s before => before)) (fun _ => ?_))
  refine .bind (fun _ s => backlog s = b) (.modifyGet (fun s before => before)) (fun registered => .lift_bind (fun _ _ => ?_))
  refine .bind (fun _ s => backlog s = b) (.modify (fun s before => before)) (fun _ => ?_)
  exact attempt_any b ord [start_message] [] false

/-- The end of a task: nothing is new, or a start message if a message crashed. -/
def Served (mids : List Nat) (b b' : Backlog) : Prop :=
  b' = b ∨ mids ≠ [] ∧ ∃ ord, Attempted False b ord [start_message] [] b'

theorem handle_restart_moves (ord : Nat) {mids : List Nat} (some_ : mids ≠ []) (b : Backlog) :
    Ensures (fun s => backlog s = b) (handle_restart ord) (fun _ s => Served mids b (backlog s)) := by
  refine .bind (fun _ s => backlog s = b) (.modifyGet (fun s before => before)) (fun result => ?_)
  cases result with
  | ok _ =>
    refine .bind (fun _ s => backlog s = b) (.modify (fun s before => before)) (fun _ => ?_)
    exact (respawn_moves ord b).weaken (fun _ before => before) (fun _ s after => .inr ⟨some_,ord,after⟩)
  | error _ =>
    refine .bind (fun _ s => backlog s = b) (.modify (fun s before => before)) (fun _ => ?_)
    exact (kill_keeps ord b).weaken (fun _ before => before) (fun _ s same => .inl same)

theorem roll_if_false {condition : Bool} (p : F64) (off : condition = false) : roll_if condition p = pure false := by
  rw [off]
  rfl

theorem process_chosen_moves (t : SimTask) (b : Backlog) :
    Ensures (fun s => backlog s = b) (process_chosen t) (fun _ s => Served t.mids b (backlog s)) := by
  unfold process_chosen
  refine .get_bind (fun s₀ same => .lift_bind (fun led _ => .lift_bind (fun queued _ => ?_)))
  refine .bind (fun _ s => backlog s = b) (.modify ?_) (fun _ => ?_)
  · rintro s rfl
    exact same
  have discards : Ensures (fun s => backlog s = b) (modify (·.discard t) : SimM Unit) (fun _ s => Served t.mids b (backlog s)) :=
    .modify (fun s before => .inl ((discard_keeps t s).trans before))
  have runs : Ensures (fun s => backlog s = b) (execute_chosen t s₀.config.faults.crash_prob)
      (fun _ s => Served t.mids b (backlog s)) := by
    refine .bind (fun crash s => (crash = true → t.mids ≠ []) ∧ backlog s = b) ?_ (fun crash => .at_state (fun s₁ before => ?_))
    · by_cases some_ : 0 < t.app_len
      · have rolls : Keeps backlog (roll_if (0 < t.app_len) s₀.config.faults.crash_prob) := .ite (draw_keeps _) (.pure _)
        refine (rolls b).weaken (fun _ same => same) (fun crash s same => ⟨fun _ none => ?_,same⟩)
        rw [SimTask.app_len,none] at some_
        cases some_
      · rw [roll_if_false _ (by simpa using some_)]
        exact .pure _ (fun s same => ⟨(fun hit => by cases hit),same⟩)
    obtain ⟨crashes,same⟩ := before
    refine Ensures.weaken (P := fun s => backlog s = b) ?_ (fun s here => here ▸ same) (fun _ _ after => after)
    refine .bind _ (run_task_keeps t.task crash b) (fun result => .lift_bind (fun _ _ => ?_))
    refine .bind _ ((Keeps.forM result.2 settle_record_keeps) b) (fun _ => ?_)
    cases crash with
    | false => exact .pure _ (fun s same => .inl same)
    | true =>
      refine .bind (fun _ s => backlog s = b) (.modify (fun s before => before)) (fun _ => ?_)
      exact .bind _ (settle_crash_keeps t.ord t.mids b) (fun _ => handle_restart_moves t.ord (crashes rfl) b)
  split
  · exact runs
  · exact runs
  · exact discards
  · exact discards
  · exact discards
  · exact discards

/-- Tasks were processed, if there were any. -/
structure Worked (b b' : Backlog) : Prop where
  onward : Onward b b'
  delayed : b'.delayed = b.delayed
  tidy : Tidy b → Tidy b'
  moved : b' = b ∨ b'.energy < b.energy

theorem Worked.energy_le {b b' : Backlog} (worked : Worked b b') : b'.energy ≤ b.energy := by
  rcases worked.moved with same | less
  · rw [same]
  · exact Nat.le_of_lt less

/-- A task that was taken out and served. -/
theorem worked_of {b b' : Backlog} {t : SimTask} {left : ReadySet} (taken : b.ready.tasks.Perm (t :: left.tasks))
    (tallied : Tallied b.ready → Tallied left) (served : Served t.mids { b with ready := left } b') :
    Worked b b' ∧ b'.energy < b.energy := by
  have popped : b.energy = { b with ready := left : Backlog }.energy + toll 0 t.mids := by
    have sum := (taken.map (fun t => toll 0 t.mids)).sum_eq
    simp only [Backlog.energy,sum,List.map_cons,List.sum_cons]
    omega
  have tidy (before : Tidy b) : Tidy { b with ready := left } := { before with tallied := tallied before.tallied }
  rcases served with rfl | ⟨some_,ord,attempted⟩
  · have less : { b with ready := left : Backlog }.energy < b.energy := by
      rw [popped]
      exact Nat.lt_add_of_pos_right (by unfold toll; split <;> omega)
    exact ⟨⟨⟨rfl,rfl,rfl,rfl⟩,rfl,tidy,.inr less⟩,less⟩
  · obtain ⟨⟨next,total,tick,reach⟩,delayed⟩ := attempted.onward
    have less : b'.energy < b.energy := by
      have paid := attempted.energy_le
      have start : toll 1 [] = 2 := rfl
      have task : toll 0 t.mids = 3 := by
        unfold toll
        rw [if_neg (by simpa using some_)]
      omega
    exact ⟨⟨⟨next,total,tick,reach⟩,delayed,fun before => attempted.tidy (tidy before) (by decide),.inr less⟩,less⟩

theorem Worked.trans {b b' b'' : Backlog} (first : Worked b b') (second : Worked b' b'') : Worked b b'' where
  onward := first.onward.trans second.onward
  delayed := second.delayed.trans first.delayed
  tidy := second.tidy ∘ first.tidy
  moved := by
    rcases second.moved with rfl | less
    · exact first.moved
    · exact .inr (Nat.lt_of_lt_of_le less first.energy_le)

theorem pick_next_moves (b : Backlog) :
    Ensures (fun s => backlog s = b) pick_next (fun picked s => match picked with
      | none => backlog s = b ∧ b.ready.tasks = []
      | some t => ∃ left, backlog s = { b with ready := left } ∧ b.ready.tasks.Perm (t :: left.tasks) ∧
          (Tallied b.ready → Tallied left)) := by
  refine .get_bind (fun s₀ same => .lift_bind (fun result picks => ?_))
  obtain rfl := same
  obtain ⟨picked,ready,rng⟩ := result
  have taken := ReadySet.pick_tasks picks
  refine .bind (fun _ s => backlog s = { backlog s₀ with ready }) (.modify ?_) (fun _ => .pure _ (fun s same => ?_))
  · rintro s rfl
    rfl
  · cases picked with
    | none =>
      have unchanged : ready = s₀.ready := taken
      subst unchanged
      exact ⟨same,pick_some picks⟩
    | some t => exact ⟨ready,same,taken,fun tallied => pick_tallied tallied picks⟩

theorem process_ready_moves (draws : Nat) (b : Backlog) :
    Ensures (fun s => backlog s = b) (process_ready draws)
      (fun _ s => Worked b (backlog s) ∧ (0 < draws → b.ready.tasks ≠ [] → (backlog s).energy < b.energy)) := by
  induction draws generalizing b with
  | zero =>
    refine .pure _ ?_
    rintro s rfl
    exact ⟨⟨.refl _,rfl,id,.inl rfl⟩,fun none => by cases none⟩
  | succ draws ih =>
    refine .bind _ (pick_next_moves b) (fun picked => ?_)
    cases picked with
    | none =>
      refine .pure _ ?_
      rintro s ⟨rfl,empty⟩
      exact ⟨⟨.refl _,rfl,id,.inl rfl⟩,fun _ some_ => absurd empty some_⟩
    | some t =>
      refine .at_state (fun s₁ before => ?_)
      obtain ⟨left,same,taken,tallied⟩ := before
      refine .bind _ ((process_chosen_moves t { b with ready := left }).weaken (fun s here => here ▸ same) (fun _ _ after => after)) ?_
      refine fun _ => .at_state (fun s₂ served => ?_)
      obtain ⟨first,less⟩ := worked_of taken tallied served
      refine (ih (backlog s₂)).weaken (fun s here => by rw [here]) (fun _ s after => ⟨first.trans after.1,fun _ _ => ?_⟩)
      exact Nat.lt_of_le_of_lt after.1.energy_le less

/-! ### Workload -/

/-- A delivery was tried or postponed. -/
structure Posted (msgs : List Message) (mids : List Nat) (delay : Nat) (b b' : Backlog) : Prop where
  onward : Onward b b'
  tidy : msgs.length ≤ 3 → delay ≤ b.reach → Tidy b → Tidy b'
  costs : b'.energy ≤ b.energy + toll 2 mids

theorem push_later_perm (entry : DeliverLater) (delayed : List DeliverLater) :
    (push_later entry delayed).Perm (entry :: delayed) := by
  induction delayed with
  | nil => exact .refl _
  | cons first rest ih =>
    unfold push_later
    split
    · exact .refl _
    · exact (ih.cons first).trans (.swap entry first rest)

theorem energy_postpone (b : Backlog) (entry : DeliverLater) :
    { b with delayed := push_later entry b.delayed : Backlog }.energy = b.energy + toll 2 entry.payload.mids := by
  have sum := ((push_later_perm entry b.delayed).map (fun later => toll 2 later.payload.mids)).sum_eq
  simp only [Backlog.energy,sum,List.map_cons,List.sum_cons]
  omega

theorem deliver_or_block_moves (ord : Nat) (msgs : List Message) (mids : List Nat) (delay : Nat) (b : Backlog) :
    Ensures (fun s => backlog s = b) (deliver_or_block ord msgs mids delay)
      (fun _ s => Posted msgs mids delay b (backlog s)) := by
  unfold deliver_or_block
  split
  · refine .get_bind (fun s₀ same => .lift_bind (fun due postponed => .modify ?_))
    rintro s rfl
    obtain rfl := same
    refine ⟨⟨rfl,rfl,rfl,rfl⟩,fun small near tidy => ?_,Nat.le_of_eq (energy_postpone (backlog s) _)⟩
    refine { tidy with delayed := fun later member => ?_, soon := fun later member => ?_ }
    · rcases List.mem_cons.mp ((push_later_perm _ _).subset member) with rfl | old
      · exact small
      · exact tidy.delayed later old
    · rcases List.mem_cons.mp ((push_later_perm _ _).subset member) with rfl | old
      · rw [checked_ok postponed]
        exact Nat.add_le_add_left near _
      · exact tidy.soon later old
  · refine (attempt_any b ord msgs mids false).weaken (fun _ before => before) (fun _ s attempted => ?_)
    refine ⟨attempted.onward.1,fun small _ tidy => attempted.tidy tidy small,attempted.energy_le.trans ?_⟩
    rw [toll_two]
    exact Nat.add_le_add_left (Nat.le_succ _) _

theorem roll_if_keeps (condition : Bool) (p : F64) : Keeps backlog (roll_if condition p) := .ite (draw_keeps _) (.pure _)

/-- A send event has one to three messages, and no more than remain. -/
theorem draw_len_moves {remaining : Nat} (some_ : 1 ≤ remaining) (b : Backlog) :
    Ensures (fun s => backlog s = b) (draw_len remaining)
      (fun len s => backlog s = b ∧ 1 ≤ len ∧ len ≤ 3 ∧ len ≤ remaining) := by
  by_cases several : 1 < remaining
  · refine .bind _ (roll_if_keeps _ _ b) (fun batch => ?_)
    cases batch with
    | false => exact .pure 1 (fun s same => ⟨same,by decide,by decide,some_⟩)
    | true =>
      refine .get_bind (fun s₀ same => .lift_bind (fun result drawn => ?_))
      refine .bind (fun _ s => backlog s = b) (.modify ?_) (fun _ => .pure _ (fun s same => ⟨same,?_⟩))
      · rintro s rfl
        exact same
      · obtain ⟨len,rng⟩ := result
        have low := le_range drawn
        have high := range_le drawn
        simp only
        omega
  · unfold draw_len
    rw [roll_if_false _ (by simpa using several)]
    exact .pure 1 (fun s same => ⟨same,by decide,by decide,some_⟩)

/-- No delivery is postponed further than the configuration allows. -/
theorem draw_delay_moves (c : SimConfig) (b : Backlog) :
    Ensures (fun s => backlog s = b) (draw_delay c.faults)
      (fun delay s => backlog s = b ∧ delay + DUPLICATE_GAP_TICKS ≤ longest c) := by
  refine .bind _ (draw_keeps _ b) (fun delayed => ?_)
  cases delayed with
  | false => exact .pure 0 (fun s same => ⟨same,by rw [Nat.zero_add]; exact Nat.le_add_left _ _⟩)
  | true =>
    refine .get_bind (fun s₀ same => .lift_bind (fun result drawn => ?_))
    refine .bind (fun _ s => backlog s = b) (.modify ?_) (fun _ => .pure _ (fun s same => ⟨same,?_⟩))
    · rintro s rfl
      exact same
    · obtain ⟨delay,rng⟩ := result
      exact Nat.add_le_add_right (range_le drawn) _

/-- Messages were injected, each for the toll of two copies at most. -/
structure Injected (b b' : Backlog) : Prop where
  total : b'.total = b.total
  tick : b'.tick = b.tick
  reach : b'.reach = b.reach
  next : b.next ≤ b'.next
  tidy : Tidy b → Tidy b'
  costs : b'.energy ≤ b.energy + 10 * (b'.next - b.next)

theorem Injected.refl (b : Backlog) : Injected b b := ⟨rfl,rfl,rfl,Nat.le_refl _,id,Nat.le_add_right _ _⟩

theorem Injected.trans {b b' b'' : Backlog} (first : Injected b b') (second : Injected b' b'') : Injected b b'' where
  total := second.total.trans first.total
  tick := second.tick.trans first.tick
  reach := second.reach.trans first.reach
  next := first.next.trans second.next
  tidy := second.tidy ∘ first.tidy
  costs := by
    have before := first.costs
    have after := second.costs
    have := first.next
    have := second.next
    omega

/-- A send event of some messages, whatever becomes of its copies. -/
theorem injected_of_onward {b b' : Backlog} {len : Nat} (one : 1 ≤ len) (within : b.next + len ≤ b.total)
    (onward : Onward { b with next := b.next + len } b') (tidy : Tidy { b with next := b.next + len } → Tidy b')
    (costs : b'.energy ≤ b.energy + 10) : Injected b b' ∧ b.next < b'.next := by
  have next : b'.next = b.next + len := onward.next
  refine ⟨⟨onward.total,onward.tick,onward.reach,?_,fun before => tidy { before with within },?_⟩,?_⟩
  all_goals omega

theorem inject_one_moves (b : Backlog) (some_ : b.next < b.total) :
    Ensures (fun s => backlog s = b) inject_one (fun _ s => Injected b (backlog s) ∧ b.next < (backlog s).next) := by
  refine .get_bind (fun s₀ same₀ => ?_)
  refine .bind (fun _ s => backlog s = b) ?_ (fun target => .lift_bind (fun remaining counted => ?_))
  · exact (draw_keeps _ b).weaken (fun s here => here ▸ same₀) (fun _ _ after => after)
  have remains : remaining = b.total - b.next := by
    rw [← same₀]
    exact subtract_ok counted
  refine .bind _ (draw_len_moves (by omega) b) (fun len => .at_state (fun s₁ before => ?_))
  obtain ⟨same₁,one,few,enough⟩ := before
  refine Ensures.weaken (P := fun s => backlog s = b) ?_ (fun s here => here ▸ same₁) (fun _ _ after => after)
  refine .bind _ (draw_keeps _ b) (fun urgent => ?_)
  refine .bind (fun _ s => backlog s = { b with next := b.next + len }) (.modify ?_) (fun _ => ?_)
  · rintro s rfl
    rfl
  have within : b.next + len ≤ b.total := by omega
  refine .bind _ (draw_keeps _ _) (fun rejected => ?_)
  split
  · refine .modify (fun s same => ?_)
    rw [reject_keeps,same]
    exact injected_of_onward one within (.refl _) id (Nat.le_add_right _ _)
  · refine .bind _ (draw_delay_moves s₀.config _) (fun delay => .at_state (fun s₂ before => ?_))
    obtain ⟨same₂,near⟩ := before
    refine Ensures.weaken (P := fun s => backlog s = { b with next := b.next + len }) ?_ (fun s here => here ▸ same₂)
      (fun _ _ after => after)
    refine .bind _ (draw_keeps _ _) (fun duplicate => ?_)
    have small : ((List.range' s₀.next_mid len).map (app_message (if urgent then .High else .Normal))).length ≤ 3 := by
      simpa using few
    have price : toll 2 (List.range' s₀.next_mid len) = 5 := by
      obtain ⟨more,rfl⟩ := Nat.exists_eq_add_of_le' one
      rfl
    have reach : longest s₀.config = b.reach := by
      rw [← same₀]
      rfl
    refine .bind _ (deliver_or_block_moves _ _ _ _ _) (fun _ => .at_state (fun s₃ first => ?_))
    have paid : (backlog s₃).energy ≤ b.energy + 5 := price ▸ first.costs
    have tidied := first.tidy small (by show delay ≤ b.reach; omega)
    split
    · refine .bind (fun _ s => backlog s = backlog s₃) (.modify ?_) (fun _ => .lift_bind (fun later postponed => ?_))
      · rintro s rfl
        rfl
      refine (deliver_or_block_moves _ _ _ _ (backlog s₃)).weaken (fun _ same => same) (fun _ s second => ?_)
      have paid' : (backlog s).energy ≤ (backlog s₃).energy + 5 := price ▸ second.costs
      have same₃ : (backlog s₃).reach = b.reach := first.onward.reach
      have tidied' := second.tidy small (by rw [checked_ok postponed]; omega)
      exact injected_of_onward one within (first.onward.trans second.onward) (tidied' ∘ tidied) (by omega)
    · refine .pure _ ?_
      rintro s rfl
      exact injected_of_onward one within first.onward tidied (by omega)

theorem inject_some_moves (attempts : Nat) (b : Backlog) :
    Ensures (fun s => backlog s = b) (inject_some attempts)
      (fun _ s => Injected b (backlog s) ∧ (0 < attempts → b.next < b.total → b.next < (backlog s).next)) := by
  induction attempts generalizing b with
  | zero =>
    refine .pure _ ?_
    rintro s rfl
    exact ⟨.refl _,fun none => by cases none⟩
  | succ attempts ih =>
    refine .get_bind (fun s₀ same => ?_)
    obtain rfl := same
    split
    · next used =>
      refine .pure _ ?_
      rintro s rfl
      exact ⟨.refl _,fun _ some_ => absurd some_ (Nat.not_lt.mpr used)⟩
    · next some_ =>
      refine .bind _ ((inject_one_moves (backlog s₀) (Nat.lt_of_not_le some_)).weaken (fun s here => by rw [here]) (fun _ _ after => after)) ?_
      refine fun _ => .at_state (fun s₁ first => ?_)
      refine (ih (backlog s₁)).weaken (fun s here => by rw [here]) (fun _ s after => ⟨first.1.trans after.1,fun _ _ => ?_⟩)
      exact Nat.lt_of_lt_of_le first.2 after.1.next

/-- The workload of a tick: nothing once the budget is used up, and at least one
    message before. -/
theorem inject_workload_moves (b : Backlog) :
    Ensures (fun s => backlog s = b) inject_workload
      (fun _ s => Injected b (backlog s) ∧ (b.total ≤ b.next → backlog s = b) ∧ (b.next < b.total → b.next < (backlog s).next)) := by
  refine .get_bind (fun s₀ same => ?_)
  obtain rfl := same
  split
  · next used =>
    refine .pure _ ?_
    rintro s rfl
    exact ⟨.refl _,fun _ => rfl,fun some_ => absurd some_ (Nat.not_lt.mpr used)⟩
  · next some_ =>
    refine .bind _ ((roll_if_keeps _ _ (backlog s₀)).weaken (fun s here => by rw [here]) (fun _ _ after => after)) ?_
    refine fun extra => .lift_bind (fun attempts _ => ?_)
    refine (inject_some_moves _ (backlog s₀)).weaken (fun _ same => same) (fun _ s after => ⟨after.1,?_,after.2 (by omega)⟩)
    exact fun used => absurd used some_

/-! ### The beginning -/

/-- Some actors were spawned, each for the toll of its start message. -/
structure Spawned (k : Nat) (b b' : Backlog) : Prop where
  onward : Onward b b'
  delayed : b'.delayed = b.delayed
  tidy : Tidy b → Tidy b'
  costs : b'.energy ≤ b.energy + 2 * k

theorem spawn_actor_moves (ord : Nat) (b : Backlog) :
    Ensures (fun s => backlog s = b) (spawn_actor ord) (fun _ s => Spawned 1 b (backlog s)) := by
  refine .bind (fun _ s => backlog s = b) (.modifyGet (fun s same => same)) (fun registered => .lift_bind (fun _ _ => ?_))
  refine .bind (fun _ s => backlog s = b) (.modifyGet (fun s same => same)) (fun supervised => .lift_bind (fun _ _ => ?_))
  refine .bind (fun _ s => backlog s = b) (.modify (fun s same => same)) (fun _ => ?_)
  refine (attempt_any b ord [start_message] [] false).weaken (fun _ same => same) (fun _ s attempted => ?_)
  exact ⟨attempted.onward.1,attempted.onward.2,fun tidy => attempted.tidy tidy (by decide),attempted.energy_le⟩

theorem spawn_actors_moves (ords : List Nat) (b : Backlog) :
    Ensures (fun s => backlog s = b) (ords.forM spawn_actor) (fun _ s => Spawned ords.length b (backlog s)) := by
  induction ords generalizing b with
  | nil =>
    refine .pure _ ?_
    rintro s rfl
    exact ⟨.refl _,rfl,id,Nat.le_refl _⟩
  | cons ord ords ih =>
    refine .bind _ (spawn_actor_moves ord b) (fun _ => .at_state (fun s₁ first => ?_))
    refine (ih (backlog s₁)).weaken (fun s here => by rw [here]) (fun _ s rest => ?_)
    refine ⟨first.onward.trans rest.onward,rest.delayed.trans first.delayed,rest.tidy ∘ first.tidy,?_⟩
    have paid := first.costs
    have paid' := rest.costs
    rw [List.length_cons]
    omega

theorem with_config_moves (s₀ : Sim) :
    Ensures (fun s => s = s₀) with_config (fun _ s => Spawned s₀.config.actors.toNat (backlog s₀) (backlog s)) := by
  refine .get_bind ?_
  rintro s rfl
  refine (spawn_actors_moves (List.range s.config.actors.toNat) (backlog s)).weaken (fun s here => by rw [here]) ?_
  rw [List.length_range]
  exact fun _ _ after => after

end ActorKit.Sim.Energy
