import ActorKit.Sim.Accounts

/-!
# The audits of the simulation

Every method keeps the invariant of `Accounts`, for every stream of draws, so no
audit, no `expect`, no index and no subtraction of the simulation fails. What can
fail is the arithmetic of configured quantities.
-/

namespace ActorKit.Sim.Audits
open ActorKit.mailbox ActorKit.registry ActorKit.queue ActorKit.scheduler ActorKit.sim ActorKit.supervisor
open ActorKit.MailboxAccounting ActorKit.MailboxCalls ActorKit.Receipts ActorKit.Program
open ActorKit.Sim.Pipeline ActorKit.Sim.Texts ActorKit.Sim.Restarts ActorKit.Sim.Population ActorKit.Sim.Accounts

/-- The longest a delivery can be postponed by. -/
def longest (c : SimConfig) : Nat := max c.faults.delay_ticks_min.toNat c.faults.delay_ticks_max.toNat + DUPLICATE_GAP_TICKS

/-- The events of one tick, or the restarts of all actors, do not fit into a
    `u64`. -/
def Excessive (c : SimConfig) : Prop :=
  2 ^ 64 ≤ (c.injection_rate.max .zero).as_u64 + 1 ∨ 2 ^ 64 ≤ c.max_restarts.toNat * c.actors.toNat

/-- The simulated actors and the clock only grow older. At the end the ids are
    assumed to be distinct and the delays to fit into the tick counter; what an
    excessive configuration overflows is accepted. -/
def setting (c : SimConfig) : Setting Sim Failure where
  Grows s t := Grows s.ledger t.ledger ∧ s.tick ≤ t.tick
  Assumed s := Distinct s.ledger ∧ s.tick + longest c < 2 ^ 64
  Accepted failure := failure = .Overflow ∧ Excessive c
  refl s := ⟨grows_refl s.ledger,Nat.le_refl _⟩
  trans first then_ := ⟨first.1.trans then_.1,Nat.le_trans first.2 then_.2⟩
  inherit grows assumed := ⟨assumed.1.anti grows.1,by have := grows.2; have := assumed.2; omega⟩

/-- A step that does not touch the ledger. -/
theorem grows_same {c : SimConfig} {s t : Sim} (same : t.ledger = s.ledger) (clock : t.tick = s.tick := by rfl) :
    (setting c).Grows s t := by
  show Grows s.ledger t.ledger ∧ s.tick ≤ t.tick
  rw [same]
  exact ⟨grows_refl _,Nat.le_of_eq clock.symm⟩

theorem index_ok {α : Type} {items : List α} {i : Nat} {a : α} (found : index items i = .ok a) : items[i]? = some a := by
  unfold index at found
  split at found
  · next b at_ =>
    cases found
    exact at_
  · cases found

theorem index_error {α : Type} {items : List α} {i : Nat} {failure : Failure} (missing : index items i = .error failure) :
    items[i]? = none := by
  unfold index at missing
  split at missing
  · cases missing
  · next at_ => exact at_

section
variable {c : SimConfig} {o : Outside} {n : Nat}

/-! ## Deliveries -/

/-- A registered id is the current id of a live actor. -/
theorem live_of_registered {ord : Nat} {hand : Hand} {s : Sim} (inv : Inv c o n hand s) (up : hand.fallen = none)
    (distinct : Distinct s.ledger) {id : ActorId} (current : s.actors[ord]? = some id) {state : ActorState}
    (registered : s.registry.get_state id = some state) :
    ∃ led, s.ledger[ord]? = some led ∧ led.alive = true ∧ id = idOf ord led ∧
      Alive c.mailbox s.registry (hand.held ++ s.ready.tasks) ord led := by
  unfold ActorRegistry.get_state at registered
  obtain ⟨e,entry,-⟩ := Option.map_eq_some_iff.mp registered
  obtain ⟨ord',led',found',lives,same⟩ := inv.world.ids id e entry
  rw [inv.world.actors] at current
  obtain ⟨led,found,rfl⟩ := Option.map_eq_some_iff.mp current
  obtain ⟨rfl,-⟩ := distinct ord ord' led led' found found' _ _ (Nat.le_refl _) (Nat.le_refl _) same
  rw [found] at found'
  cases found'
  exact ⟨_,found,lives,rfl,inv.world.alive ord _ found lives (by rw [up]; simp)⟩

theorem alive_mailbox {registry : ActorRegistry} {tasks : List SimTask} {ord : Nat} {led : ActorLedger}
    (alive : Alive c.mailbox registry tasks ord led) :
    ∃ mb, registry.get_mailbox (idOf ord led) = some mb ∧ registry.mailboxes.lookup (idOf ord led) = some mb ∧
      Sound c.mailbox mb := by
  obtain ⟨e,entry,-⟩ := alive.entry
  obtain ⟨mb,box,sound,-⟩ := alive.mailbox
  exact ⟨mb,by rw [ActorRegistry.get_mailbox,entry]; exact box,box,sound⟩

/-- What a delivery attempt starts from: its messages are in its hands. -/
structure Attempt (c : SimConfig) (o : Outside) (n ord : Nat) (msgs : List Message) (mids : List Nat) (s : Sim) :
    Prop where
  inv : Inv c o n { loose := mids } s
  small : ord < n
  mail : Mail mids msgs

theorem Attempt.actor {ord : Nat} {msgs : List Message} {mids : List Nat} {s : Sim}
    (attempt : Attempt c o n ord msgs mids s) : ∃ led, s.ledger[ord]? = some led ∧ s.actors[ord]? = some (idOf ord led) := by
  have inside : ord < s.ledger.length := by
    rw [attempt.inv.count]
    exact attempt.small
  have found := List.getElem?_eq_getElem inside
  exact ⟨_,found,by rw [attempt.inv.world.actors,found]; rfl⟩

/-- The rest of an attempt on a mailbox with the state it was looked up in. -/
theorem attempt_live (fits : c.mailbox.capacity < 2 ^ 64) {ord : Nat} {msgs : List Message} {mids : List Nat}
    {s : Sim} (attempt : Attempt c o n ord msgs mids s) (distinct : Distinct s.ledger) {id : ActorId}
    (current : s.actors[ord]? = some id) {state : ActorState} (registered : s.registry.get_state id = some state) :
    ∃ mb, s.registry.get_mailbox id = some mb ∧ (¬ mb.remaining_capacity < msgs.length →
      ∃ mb', push_all mb msgs = .ok mb' ∧ ∀ message was_blocked, msgs[0]? = some message →
        Inv c o n {} (s.deliver ord id mb' (task_of id message (msgs.drop 1)) mids was_blocked)) := by
  obtain ⟨led,found,lives,rfl,alive⟩ := live_of_registered attempt.inv rfl distinct current registered
  obtain ⟨mb,present,box,sound⟩ := alive_mailbox alive
  refine ⟨mb,present,fun roomy => ?_⟩
  have room : queued mb + msgs.length ≤ c.mailbox.capacity := by
    have permits := sound.permits
    have size := sound.size
    unfold Mailbox.remaining_capacity Mailbox.len at roomy
    rw [sound.sameConfig] at roomy
    omega
  obtain ⟨mb',pushed,sound',size⟩ := push_all_stores fits msgs sound room
  refine ⟨mb',pushed,fun message was_blocked first => ?_⟩
  have messages : (task_of (idOf ord led) message (msgs.drop 1)).messages = msgs := by
    cases msgs with
    | nil => cases first
    | cons m msgs =>
      cases first
      rfl
  exact attempt.inv.deliver distinct found lives box sound' rfl (by rw [messages]; exact attempt.mail)
    (by rw [messages]; exact size) was_blocked

/-- What an attempt leaves alone. -/
def Untouched (delayed : List DeliverLater) (parked next : Nat) (s : Sim) : Prop :=
  s.delayed = delayed ∧ parked ≤ s.blocked.length ∧ s.next_mid = next

theorem reject_next (ord : Nat) (reason : RejectReason) (mids : List Nat) (s : Sim) :
    (s.reject ord reason mids).next_mid = s.next_mid := by
  unfold Sim.reject
  induction mids generalizing s with
  | nil => rfl
  | cons mid mids ih => exact ih _

theorem reject_tick (ord : Nat) (reason : RejectReason) (mids : List Nat) (s : Sim) :
    (s.reject ord reason mids).tick = s.tick := by
  unfold Sim.reject
  induction mids generalizing s with
  | nil => rfl
  | cons mid mids ih => exact ih _

theorem attempt_delivery_meets (fits : c.mailbox.capacity < 2 ^ 64) (ord : Nat) (msgs : List Message) (mids : List Nat)
    (was_blocked : Bool) (delayed : List DeliverLater) (parked next : Nat) :
    Meets (setting c) (fun s => Attempt c o n ord msgs mids s ∧ Untouched delayed parked next s)
      (attempt_delivery ord msgs mids was_blocked) (fun _ s => Inv c o n {} s ∧ Untouched delayed parked next s) := by
  unfold attempt_delivery
  refine .get_bind (fun s₀ => .lift_bind ?_ (fun id current => ?_))
  · rintro e missing s ⟨rfl,attempt,-⟩ -
    obtain ⟨led,-,at_⟩ := attempt.actor
    rw [index_error missing] at at_
    cases at_
  have current := index_ok current
  -- The two endings that are the same for every state.
  have rejects : Meets (setting c) (fun s => s = s₀ ∧ Attempt c o n ord msgs mids s ∧ Untouched delayed parked next s)
      (modify (·.reject ord .DeadTarget mids)) (fun _ s => Inv c o n {} s ∧ Untouched delayed parked next s) := by
    refine .modify _ (fun s => grows_same (reject_frame ord .DeadTarget mids s).2.2 (reject_tick ord .DeadTarget mids s)) ?_
    rintro s ⟨-,attempt,same⟩ -
    obtain ⟨sameDelayed,sameBlocked,-⟩ := reject_frame ord .DeadTarget mids s
    refine ⟨Inv.reject ord .DeadTarget mids (by rw [List.append_nil]; exact attempt.inv),?_,?_,?_⟩
    · exact sameDelayed.trans same.1
    · rw [sameBlocked]
      exact same.2.1
    · exact (reject_next ..).trans same.2.2
  have delivers : ∀ state, s₀.registry.get_state id = some state →
      Meets (setting c) (fun s => s = s₀ ∧ Attempt c o n ord msgs mids s ∧ Untouched delayed parked next s)
      (do
        let mailbox ← lift (expect "live ord has a mailbox" (s₀.registry.get_mailbox id))
        if mailbox.remaining_capacity < msgs.length then modify (·.park ord msgs mids was_blocked)
        else
          let mailbox ← lift (push_all mailbox msgs)
          let message ← lift (index msgs 0)
          let _ ← lift (index s₀.ledger ord)
          modify (·.deliver ord id mailbox (task_of id message (msgs.drop 1)) mids was_blocked))
      (fun _ s => Inv c o n {} s ∧ Untouched delayed parked next s) := by
    intro state registered
    refine .lift_bind ?_ (fun mailbox found => ?_)
    · rintro e missing s ⟨rfl,attempt,-⟩ ⟨distinct,-⟩
      obtain ⟨mb,present,-⟩ := attempt_live fits attempt distinct current registered
      rw [present] at missing
      cases missing
    split
    · refine .modify _ (fun s => grows_same rfl) ?_
      rintro s ⟨-,attempt,same⟩ -
      refine ⟨attempt.inv.park attempt.small attempt.mail was_blocked,same.1,?_,same.2.2⟩
      have := same.2.1
      simp only [Sim.park,List.length_append]
      omega
    · next roomy =>
      have present : ∀ mb, s₀.registry.get_mailbox id = some mb → mb = mailbox := by
        intro mb there
        rw [there] at found
        cases found
        rfl
      refine .lift_bind ?_ (fun mb' pushed => .lift_bind ?_ (fun message first => .lift_bind ?_ (fun led _ => ?_)))
      · rintro e failed s ⟨rfl,attempt,-⟩ ⟨distinct,-⟩
        obtain ⟨mb,there,takes⟩ := attempt_live fits attempt distinct current registered
        obtain rfl := present mb there
        obtain ⟨mb',pushed,-⟩ := takes roomy
        rw [pushed] at failed
        cases failed
      · rintro e missing s ⟨-,attempt,-⟩ -
        have none := index_error missing
        rw [List.getElem?_eq_none_iff] at none
        exact absurd (List.length_eq_zero_iff.mp (by omega)) (mail_ne_nil attempt.mail)
      · rintro e missing s ⟨rfl,attempt,-⟩ -
        obtain ⟨led,there,-⟩ := attempt.actor
        rw [index_error missing] at there
        cases there
      · have grows : ∀ s : Sim, (setting c).Grows s
            (s.deliver ord id mb' (task_of id message (msgs.drop 1)) mids was_blocked) :=
          fun s => ⟨grows_modify _ _ _ (fun _ => Nat.le_refl _),Nat.le_refl _⟩
        refine .modify _ grows ?_
        rintro s ⟨rfl,attempt,same⟩ after
        have distinct : Distinct s.ledger := ((setting c).inherit (grows s) after).1
        obtain ⟨mb,there,takes⟩ := attempt_live fits attempt distinct current registered
        obtain rfl := present mb there
        obtain ⟨mb'',pushed',delivered⟩ := takes roomy
        rw [pushed] at pushed'
        cases pushed'
        exact ⟨delivered message was_blocked (index_ok first),same⟩
  split
  · exact rejects
  · exact rejects
  · exact rejects
  · next state => exact delivers _ state
  · next state => exact delivers _ state
  · next state => exact delivers _ state

theorem deliver_or_block_meets (fits : c.mailbox.capacity < 2 ^ 64) (ord : Nat) (msgs : List Message) (mids : List Nat)
    (delay next : Nat) :
    Meets (setting c) (fun s => Attempt c o n ord msgs mids s ∧ s.next_mid = next ∧ delay ≤ longest c)
      (deliver_or_block ord msgs mids delay)
      (fun _ s => Inv c o n {} s ∧ s.next_mid = next) := by
  unfold deliver_or_block
  split
  · refine .get_bind (fun s₀ => .lift_bind ?_ (fun due _ => ?_))
    · rintro e failed s ⟨rfl,-,-,short⟩ ⟨-,late⟩
      exact absurd failed (checked_fits (by omega))
    refine .modify _ (fun s => grows_same rfl) ?_
    rintro s ⟨-,attempt,same,-⟩ -
    have inv : Inv c o n { loose := mids ++ [] } s := by
      rw [List.append_nil]
      exact attempt.inv
    exact ⟨inv.postpone attempt.small attempt.mail due (s.next_seq + 1) false,same⟩
  · refine .at_state (fun s₀ => ?_)
    refine (attempt_delivery_meets fits ord msgs mids false s₀.delayed 0 next).weaken ?_ (fun _ s after => ⟨after.1,after.2.2.2⟩)
    rintro s ⟨rfl,attempt,same,-⟩ -
    exact ⟨attempt,rfl,Nat.zero_le _,same⟩

/-- The start message of an incarnation is delivered or parked. -/
theorem start_meets (fits : c.mailbox.capacity < 2 ^ 64) (ord : Nat) :
    Meets (setting c) (fun s => Inv c o n {} s ∧ ord < n) (deliver_or_block ord [start_message] [] 0)
      (fun _ s => Inv c o n {} s) := by
  refine .at_state (fun s₀ => ?_)
  refine (deliver_or_block_meets fits ord [start_message] [] 0 s₀.next_mid).weaken ?_ (fun _ s after => after.1)
  rintro s ⟨rfl,inv,small⟩ -
  exact ⟨⟨inv,small,.inl ⟨rfl,rfl⟩⟩,rfl,Nat.zero_le _⟩

/-! ## Spawning -/

theorem spawn_actor_meets (fits : c.mailbox.capacity < 2 ^ 64) (ord : Nat) :
    Meets (setting c) (fun s => Inv c o ord {} s ∧ ord < 2 ^ 64) (spawn_actor ord) (fun _ s => Inv c o (ord + 1) {} s) := by
  unfold spawn_actor
  refine .at_state (fun s₀ => ?_)
  refine .bind (fun result s => result = (s₀.register ord 0).1 ∧ s = (s₀.register ord 0).2 ∧ Inv c o ord {} s₀ ∧ ord < 2 ^ 64)
    (.modifyGet _ (fun s => grows_same rfl) (fun s before _ => ?_)) (fun registered => ?_)
  · obtain ⟨rfl,inv,small⟩ := before
    exact ⟨rfl,rfl,inv,small⟩
  refine .lift_bind ?_ (fun mb _ => ?_)
  · rintro e failed s ⟨rfl,rfl,inv,small⟩ -
    obtain ⟨mb,s₁,id,s₂,registers,-⟩ := inv.spawned small
    rw [registers] at failed
    cases failed
  refine .bind (fun result s => result = ((s₀.register ord 0).2.supervise ord).1 ∧
      s = ((s₀.register ord 0).2.supervise ord).2 ∧ Inv c o ord {} s₀ ∧ ord < 2 ^ 64)
    (.modifyGet _ (fun s => grows_same rfl) (fun s before _ => ?_)) (fun supervised => ?_)
  · obtain ⟨-,rfl,inv,small⟩ := before
    exact ⟨rfl,rfl,inv,small⟩
  refine .lift_bind ?_ (fun id _ => ?_)
  · rintro e failed s ⟨rfl,rfl,inv,small⟩ -
    obtain ⟨mb,s₁,id,s₂,registers,supervises,-⟩ := inv.spawned small
    rw [registers,supervises] at failed
    cases failed
  refine .bind (fun _ s => Inv c o (ord + 1) {} s ∧ ord < ord + 1) (.modify _ (fun s => ?_) (fun s before _ => ?_))
    (fun _ => start_meets fits ord)
  · refine ⟨fun other led found => ⟨led,?_,Nat.le_refl _⟩,Nat.le_refl _⟩
    rw [List.getElem?_append_left (List.getElem?_eq_some_iff.mp found).1]
    exact found
  · obtain ⟨-,rfl,inv,small⟩ := before
    obtain ⟨mb,s₁,id,s₂,registers,supervises,inv'⟩ := inv.spawned small
    rw [registers,supervises]
    exact ⟨inv',Nat.lt_succ_self _⟩

theorem with_config_meets (fits : c.mailbox.capacity < 2 ^ 64) :
    Meets (setting c) (fun s => Inv c o 0 {} s) with_config (fun _ s => Inv c o c.actors.toNat {} s) := by
  unfold with_config
  refine .get_bind (fun s₀ => ?_)
  refine (Meets.forM (fun rest s => ∃ k, Inv c o k {} s ∧ k ≤ c.actors.toNat ∧
    rest = List.range' k (c.actors.toNat - k)) (fun ord rest => ?_) (List.range s₀.config.actors.toNat)).weaken ?_ ?_
  · have size := c.actors.toNat_lt
    have spawns := spawn_actor_meets (o := o) fits ord
    -- What is left of the loop says which actor comes next.
    have next : ∀ k, k ≤ c.actors.toNat → ord :: rest = List.range' k (c.actors.toNat - k) →
        k = ord ∧ ord < c.actors.toNat ∧ rest = List.range' (ord + 1) (c.actors.toNat - (ord + 1)) := by
      intro k le same
      cases remaining : c.actors.toNat - k with
      | zero => simp [remaining] at same
      | succ left =>
        rw [remaining,List.range'_succ] at same
        obtain ⟨rfl,tail⟩ := List.cons.inj same
        refine ⟨rfl,by omega,?_⟩
        rw [show c.actors.toNat - (ord + 1) = left by omega]
        exact tail
    refine (spawns.keep (ord < c.actors.toNat ∧ rest = List.range' (ord + 1) (c.actors.toNat - (ord + 1)))).weaken ?_
      (fun _ s after => ⟨ord + 1,after.1,after.2.1,after.2.2⟩)
    rintro s ⟨k,inv,le,same⟩ -
    obtain ⟨rfl,shape⟩ := next k le same
    exact ⟨⟨inv,by omega⟩,shape⟩
  · rintro s ⟨rfl,inv⟩ -
    refine ⟨0,inv,Nat.zero_le _,?_⟩
    rw [inv.sameConfig,List.range_eq_range']
    rfl
  · rintro _ s ⟨k,inv,le,done⟩
    have none : c.actors.toNat - k = 0 := by simpa using done.symm
    rwa [show k = c.actors.toNat by omega] at inv

/-! ## Workload -/

theorem draw_meets {α : Type} {f : SimRng → Except Failure (α × SimRng)} {P : Sim → Prop}
    (stable : ∀ s rng, P s → P { s with rng })
    (fails : ∀ rng e, f rng = .error e → ∀ s, P s → (setting c).Assumed s → (setting c).Accepted e) :
    Meets (setting c) P (draw f) (fun a s => P s ∧ ∃ rng rng', f rng = .ok (a,rng')) := by
  unfold draw
  refine .get_bind (fun s₀ => .lift_bind ?_ (fun result drawn => ?_))
  · rintro e failed s ⟨-,before⟩ assumed
    exact fails _ e failed s before assumed
  obtain ⟨a,rng⟩ := result
  refine .bind (fun _ => P) (.modify _ (fun s => grows_same rfl) ?_) (fun _ => .pure a ?_)
  · rintro s ⟨-,before⟩ -
    exact stable s rng before
  · exact fun s before _ => ⟨before,s₀.rng,rng,drawn⟩

theorem roll_meets (p : F64) {P : Sim → Prop} (stable : ∀ s rng, P s → P { s with rng }) :
    Meets (setting c) P (roll p) (fun hit s => P s ∧ (hit = true → p ≠ .zero)) := by
  refine (draw_meets stable (fun rng e failed s before _ => by cases failed)).post ?_
  rintro hit s ⟨before,rng,rng',rolled⟩
  refine ⟨before,fun happened zero => ?_⟩
  rw [roll_zero rng zero] at rolled
  cases rolled
  cases happened

/-- The state of `inject_one` until it announces its messages: only draws were
    taken since `s₀`. -/
structure Injecting (c : SimConfig) (o : Outside) (n : Nat) (s₀ s : Sim) : Prop where
  inv : Inv c o n {} s
  next : s.next_mid = s₀.next_mid
  left : s₀.next_mid < c.messages.toNat
  budget : s₀.mid_times.length = c.messages.toNat
  sameConfig : s₀.config = c

theorem Injecting.stable {s₀ s : Sim} (rng : SimRng) (injecting : Injecting c o n s₀ s) :
    Injecting c o n s₀ { s with rng } := ⟨{ injecting.inv with },injecting.next,injecting.left,injecting.budget,injecting.sameConfig⟩

theorem roll_if_meets (condition : Bool) (p : F64) {P : Sim → Prop} (stable : ∀ s rng, P s → P { s with rng }) :
    Meets (setting c) P (roll_if condition p) (fun hit s => P s ∧ (hit = true → condition = true)) := by
  cases condition with
  | true => exact (roll_meets p stable).post (fun hit s after => ⟨after.1,fun _ => rfl⟩)
  | false => exact .pure false (fun s before _ => ⟨before,fun hit => by cases hit⟩)

theorem range_meets (lo hi : Nat) {P : Sim → Prop} (fits : ∀ s, P s → (setting c).Assumed s → hi + 1 < 2 ^ 64)
    (stable : ∀ s rng, P s → P { s with rng }) :
    Meets (setting c) P (draw (·.range lo hi)) (fun k s => P s ∧ ∃ rng rng', SimRng.range rng lo hi = .ok (k,rng')) :=
  draw_meets stable (fun _ _ failed s before assumed => absurd failed (range_fits (fits s before assumed)))

theorem draw_len_meets (remaining : Nat) {P : Sim → Prop} (stable : ∀ s rng, P s → P { s with rng }) :
    Meets (setting c) P (draw_len remaining) (fun len s => P s ∧ (1 ≤ remaining → 1 ≤ len ∧ len ≤ remaining)) := by
  unfold draw_len
  refine .bind _ (roll_if_meets _ _ stable) (fun batch => ?_)
  cases batch with
  | true =>
    refine Meets.post (range_meets 2 (min remaining 3) (fun _ _ _ => by omega) (fun s rng before => ⟨stable s rng before.1,before.2⟩)) ?_
    rintro len s ⟨⟨before,several⟩,rng,rng',drawn⟩
    have several : 1 < remaining := by simpa using several rfl
    have bounds := range_mem (by omega) drawn
    exact ⟨before,fun _ => by omega⟩
  | false => exact .pure 1 (fun s before _ => ⟨before.1,fun _ => by omega⟩)

theorem draw_delay_meets (faults : FaultConfig) {P : Sim → Prop} (same : ∀ s, P s → faults = c.faults)
    (stable : ∀ s rng, P s → P { s with rng }) :
    Meets (setting c) P (draw_delay faults) (fun delay s => P s ∧ delay + DUPLICATE_GAP_TICKS ≤ longest c) := by
  unfold draw_delay
  refine .bind (fun _ => P) ((roll_meets _ stable).post (fun _ s after => after.1)) (fun delayed => ?_)
  cases delayed with
  | true =>
    refine Meets.post (range_meets faults.delay_ticks_min.toNat faults.delay_ticks_max.toNat ?_ stable) ?_
    · rintro s before ⟨-,late⟩
      rw [same s before]
      simp only [longest,DUPLICATE_GAP_TICKS] at late
      omega
    · rintro delay s ⟨before,rng,rng',drawn⟩
      rw [same s before] at drawn
      have bound := range_le drawn
      exact ⟨before,Nat.add_le_add_right bound _⟩
  | false => exact .pure 0 (fun s before _ => ⟨before,by simp only [longest]; omega⟩)

/-- The state of `inject_one` with its messages announced. -/
structure Announced (c : SimConfig) (o : Outside) (n : Nat) (s₀ : Sim) (target len : Nat) (loose : List Nat) (s : Sim) :
    Prop where
  inv : Inv c o n { loose } s
  next : s.next_mid = s₀.next_mid + len
  some : 1 ≤ len
  small : target < n
  sameConfig : s₀.config = c

theorem Announced.stable {s₀ s : Sim} {target len : Nat} {loose : List Nat} (rng : SimRng)
    (announced : Announced c o n s₀ target len loose s) : Announced c o n s₀ target len loose { s with rng } :=
  ⟨{ announced.inv with },announced.next,announced.some,announced.small,announced.sameConfig⟩

/-- The deliveries of an announced event. -/
theorem Announced.attempt {s₀ s : Sim} {target len : Nat}
    (announced : Announced c o n s₀ target len (List.range' s₀.next_mid len) s) (priority : Priority) :
    Attempt c o n target ((List.range' s₀.next_mid len).map (app_message priority)) (List.range' s₀.next_mid len) s := by
  refine ⟨announced.inv,announced.small,.inr ⟨?_,priority,rfl⟩⟩
  have := announced.some
  simp
  omega

theorem inject_one_meets (fits : c.mailbox.capacity < 2 ^ 64) (positive : 0 < c.actors.toNat) :
    Meets (setting c) (fun s => Inv c o c.actors.toNat {} s ∧ s.next_mid < s.mid_times.length) inject_one
      (fun _ s => Inv c o c.actors.toNat {} s) := by
  unfold inject_one
  refine .get_bind (fun s₀ => ?_)
  refine Meets.pre (P := Injecting c o c.actors.toNat s₀) ?_ ?_
  case refine_2 =>
    rintro s ⟨rfl,inv,left⟩ -
    exact ⟨inv,rfl,by rw [← inv.size]; exact left,inv.size,inv.sameConfig⟩
  have stable : ∀ s rng, Injecting c o c.actors.toNat s₀ s → Injecting c o c.actors.toNat s₀ { s with rng } :=
    fun s rng injecting => injecting.stable rng
  -- The target.
  refine .bind _ (draw_meets stable ?_) (fun target => ?_)
  · intro rng e failed s injecting _
    obtain ⟨draw,drawn⟩ := below_ok rng (n := s₀.config.actors.toNat) (by rw [injecting.sameConfig]; exact positive)
    rw [drawn] at failed
    cases failed
  refine Meets.pre (P := fun s => Injecting c o c.actors.toNat s₀ s ∧ target < c.actors.toNat) ?_ ?_
  case refine_2 =>
    rintro s ⟨injecting,rng,rng',drawn⟩ -
    have small := below_lt drawn
    rw [injecting.sameConfig] at small
    exact ⟨injecting,small⟩
  refine .lift_bind ?_ (fun remaining subtracted => ?_)
  · rintro e failed s ⟨injecting,-⟩ -
    have left := injecting.left
    have budget := injecting.budget
    unfold subtract at failed
    rw [if_pos (by omega)] at failed
    cases failed
  have remaining_eq : remaining = s₀.mid_times.length - s₀.next_mid := subtract_ok subtracted
  -- The size of the event and its priority.
  refine .bind _ (draw_len_meets remaining (fun s rng before => ⟨before.1.stable rng,before.2⟩)) (fun len => ?_)
  refine .bind _ (roll_meets _ (fun s rng before => ⟨⟨before.1.1.stable rng,before.1.2⟩,before.2⟩)) (fun high => ?_)
  generalize (if high = true then Priority.High else Priority.Normal) = priority
  refine .bind (fun _ => Announced c o c.actors.toNat s₀ target len (List.range' s₀.next_mid len))
    (.modify _ (fun s => grows_same rfl) ?_) (fun _ => ?_)
  · rintro s ⟨⟨⟨injecting,small⟩,bounds⟩,-⟩ -
    have left := injecting.left
    have budget := injecting.budget
    have bounds := bounds (by omega)
    have room : s.next_mid + len ≤ s.mid_times.length := by
      rw [injecting.inv.size,injecting.next]
      omega
    have inv := injecting.inv.announce room target
    rw [injecting.next] at inv
    exact ⟨inv,by rw [← injecting.next]; rfl,bounds.1,small,injecting.sameConfig⟩
  have stable : ∀ s rng, Announced c o c.actors.toNat s₀ target len (List.range' s₀.next_mid len) s →
      Announced c o c.actors.toNat s₀ target len (List.range' s₀.next_mid len) { s with rng } :=
    fun s rng announced => announced.stable rng
  refine .bind _ (roll_meets _ stable) (fun rejected => ?_)
  cases rejected with
  | true =>
    refine .modify _ (fun s => grows_same (reject_frame _ _ _ s).2.2 (reject_tick _ _ _ s)) ?_
    rintro s ⟨announced,-⟩ -
    exact Inv.reject target .Fault _ (by rw [List.append_nil]; exact announced.inv)
  | false =>
    refine .bind _ (draw_delay_meets _ (fun s before => by rw [before.1.sameConfig])
      (fun s rng before => ⟨before.1.stable rng,before.2⟩)) (fun delay => ?_)
    refine .bind _ (roll_meets _ (fun s rng before => ⟨⟨before.1.1.stable rng,before.1.2⟩,before.2⟩)) (fun duplicate => ?_)
    -- The first copy, and then the second one.
    refine .bind (fun _ s => Announced c o c.actors.toNat s₀ target len [] s ∧
      (duplicate = true → c.faults.duplicate_prob ≠ .zero) ∧ delay + DUPLICATE_GAP_TICKS ≤ longest c) ?_ (fun _ => ?_)
    · refine ((deliver_or_block_meets (o := o) (n := c.actors.toNat) fits target _ _ delay (s₀.next_mid + len)).keep
        (1 ≤ len ∧ target < c.actors.toNat ∧ s₀.config = c ∧
          (duplicate = true → c.faults.duplicate_prob ≠ .zero) ∧ delay + DUPLICATE_GAP_TICKS ≤ longest c)).weaken ?_ ?_
      · rintro s ⟨⟨⟨announced,-⟩,short⟩,copies⟩ -
        rw [announced.sameConfig] at copies
        exact ⟨⟨announced.attempt priority,announced.next,by omega⟩,announced.some,announced.small,announced.sameConfig,
          copies,short⟩
      · rintro _ s ⟨⟨inv,next⟩,some,small,same,copies,short⟩
        exact ⟨⟨inv,next,some,small,same⟩,copies,short⟩
    · cases duplicate with
      | false => exact .pure _ (fun s before _ => before.1.inv)
      | true =>
        refine .bind (fun _ s => Announced c o c.actors.toNat s₀ target len (List.range' s₀.next_mid len) s ∧
            delay + DUPLICATE_GAP_TICKS ≤ longest c)
          (.modify _ (fun s => grows_same rfl) ?_) (fun _ => ?_)
        · rintro s ⟨announced,copies,short⟩ -
          have counted := announced.inv.counted { s.stats with duplicates := s.stats.duplicates + 1 } ⟨rfl,rfl,rfl⟩
          refine ⟨⟨counted.duplicate (copies rfl) _ ?_,announced.next,announced.some,announced.small,
            announced.sameConfig⟩,short⟩
          intro mid member
          show mid < s.next_mid
          rw [announced.next]
          exact (List.mem_range'_1.mp member).2
        · refine .lift_bind ?_ (fun later sum => ?_)
          · rintro e failed s ⟨-,short⟩ ⟨-,late⟩
            exact absurd failed (checked_fits (by omega))
          · refine (deliver_or_block_meets fits target _ _ later (s₀.next_mid + len)).weaken ?_ (fun _ s after => after.1)
            rintro s ⟨announced,short⟩ -
            exact ⟨announced.attempt priority,announced.next,by rw [checked_ok sum]; exact short⟩

theorem inject_some_meets (fits : c.mailbox.capacity < 2 ^ 64) (positive : 0 < c.actors.toNat) (attempts : Nat) :
    Meets (setting c) (fun s => Inv c o c.actors.toNat {} s) (inject_some attempts)
      (fun _ s => Inv c o c.actors.toNat {} s) := by
  induction attempts with
  | zero => exact .pure _ (fun s inv _ => inv)
  | succ attempts ih =>
    refine .get_bind (fun s₀ => ?_)
    split
    · exact .pure _ (fun s before _ => before.2)
    · next left =>
      refine .bind (fun _ s => Inv c o c.actors.toNat {} s) ((inject_one_meets fits positive).pre ?_) (fun _ => ih)
      rintro s ⟨rfl,inv⟩ -
      exact ⟨inv,by omega⟩

theorem inject_workload_meets (fits : c.mailbox.capacity < 2 ^ 64) (positive : 0 < c.actors.toNat) :
    Meets (setting c) (fun s => Inv c o c.actors.toNat {} s) inject_workload (fun _ s => Inv c o c.actors.toNat {} s) := by
  unfold inject_workload
  refine .get_bind (fun s₀ => ?_)
  split
  · exact .pure _ (fun s before _ => before.2)
  · refine .bind (fun _ s => Inv c o c.actors.toNat {} s ∧ s₀.config = c) ?_ (fun extra => ?_)
    · refine Meets.weaken (roll_if_meets (P := fun s => Inv c o c.actors.toNat {} s ∧ s₀.config = c) _ _ ?_) ?_ ?_
      · exact fun s rng before => ⟨{ before.1 with },before.2⟩
      · rintro s ⟨rfl,inv⟩ -
        exact ⟨inv,inv.sameConfig⟩
      · exact fun _ s after => after.1
    · refine .lift_bind ?_ (fun attempts _ => (inject_some_meets fits positive _).pre (fun s before _ => before.1))
      rintro e failed s ⟨-,same⟩ -
      refine ⟨checked_error failed,.inl ?_⟩
      by_contra fits
      rw [same] at failed
      have one := Bool.toNat_le extra
      exact absurd failed (checked_fits (by omega))

/-! ## Pending deliveries -/

theorem deliver_loop_meets (fits : c.mailbox.capacity < 2 ^ 64) (turns : Nat) :
    Meets (setting c) (fun s => Inv c o n {} s ∧ s.delayed.length ≤ turns) (deliver_loop turns)
      (fun _ s => Inv c o n {} s) := by
  induction turns with
  | zero =>
    refine .get_bind (fun s₀ => ?_)
    split
    · exact .pure _ (fun s before _ => before.2.1)
    · next later due =>
      refine .throw _ ?_
      rintro s ⟨rfl,inv,few⟩ -
      have none : s.delayed = [] := List.length_eq_zero_iff.mp (by omega)
      simp [Sim.next_due,none] at due
  | succ turns ih =>
    refine .get_bind (fun s₀ => ?_)
    split
    · exact .pure _ (fun s before _ => before.2.1)
    · next later due =>
      have first : s₀.delayed.head? = some later := by
        unfold Sim.next_due at due
        split at due
        · cases due
        · next waiting =>
          split at due <;> cases due
          rw [waiting]
          rfl
      refine .bind (fun _ s => Attempt c o n later.payload.ord later.payload.msgs later.payload.mids s ∧
          Untouched s₀.delayed.tail 0 s₀.next_mid s ∧ s₀.delayed.tail.length ≤ turns)
        (.modify _ (fun s => grows_same rfl) ?_) (fun _ => ?_)
      · rintro s ⟨rfl,inv,few⟩ -
        obtain ⟨rest,split⟩ : ∃ rest, s.delayed = later :: rest := by
          cases waiting : s.delayed with
          | nil => rw [waiting] at first; cases first
          | cons head rest => rw [waiting] at first; cases first; exact ⟨rest,rfl⟩
        obtain ⟨popped,sendable⟩ := inv.pop_delayed split { s.stats with delayed := s.stats.delayed + 1 } ⟨rfl,rfl,rfl⟩
        refine ⟨⟨popped,sendable.1,sendable.2⟩,⟨rfl,Nat.zero_le _,rfl⟩,?_⟩
        rw [List.length_tail]
        omega
      · refine .bind (fun _ s => Inv c o n {} s ∧ s.delayed.length ≤ turns) ?_ (fun _ => ih)
        refine ((attempt_delivery_meets (o := o) (n := n) fits _ _ _ _ s₀.delayed.tail 0 s₀.next_mid).keep
          (s₀.delayed.tail.length ≤ turns)).weaken (fun s before _ => ⟨⟨before.1,before.2.1⟩,before.2.2⟩) ?_
        rintro _ s ⟨⟨inv,same,-⟩,few⟩
        exact ⟨inv,by rw [same]; exact few⟩

theorem deliver_due_meets (fits : c.mailbox.capacity < 2 ^ 64) :
    Meets (setting c) (fun s => Inv c o n {} s) deliver_due (fun _ s => Inv c o n {} s) := by
  refine .get_bind (fun s₀ => (deliver_loop_meets fits s₀.delayed.length).pre ?_)
  rintro s ⟨rfl,inv⟩ -
  exact ⟨inv,Nat.le_refl _⟩

theorem retry_loop_meets (fits : c.mailbox.capacity < 2 ^ 64) (attempts : Nat) :
    Meets (setting c) (fun s => Inv c o n {} s ∧ attempts ≤ s.blocked.length) (retry_loop attempts)
      (fun _ s => Inv c o n {} s) := by
  induction attempts with
  | zero => exact .pure _ (fun s before _ => before.1)
  | succ attempts ih =>
    refine .get_bind (fun s₀ => .lift_bind ?_ (fun payload first => ?_))
    · rintro e failed s ⟨rfl,inv,some⟩ -
      cases waiting : s.blocked with
      | nil => simp [waiting] at some
      | cons p rest =>
        rw [waiting] at failed
        cases failed
    refine .bind (fun _ s => Attempt c o n payload.ord payload.msgs payload.mids s ∧
        Untouched s₀.delayed attempts s₀.next_mid s)
      (.modify _ (fun s => grows_same rfl) ?_) (fun _ => ?_)
    · rintro s ⟨rfl,inv,some⟩ -
      obtain ⟨rest,split⟩ : ∃ rest, s.blocked = payload :: rest := by
        cases waiting : s.blocked with
        | nil => rw [waiting] at first; cases first
        | cons head rest => rw [waiting] at first; cases first; exact ⟨rest,rfl⟩
      obtain ⟨popped,sendable⟩ := inv.pop_blocked split
      refine ⟨⟨popped,sendable.1,sendable.2⟩,rfl,?_,rfl⟩
      show attempts ≤ s.blocked.tail.length
      rw [List.length_tail]
      omega
    · refine .bind (fun _ s => Inv c o n {} s ∧ attempts ≤ s.blocked.length) ?_ (fun _ => ih)
      exact (attempt_delivery_meets fits _ _ _ _ s₀.delayed attempts s₀.next_mid).post
        (fun _ s after => ⟨after.1,after.2.2.1⟩)

theorem retry_blocked_meets (fits : c.mailbox.capacity < 2 ^ 64) :
    Meets (setting c) (fun s => Inv c o n {} s) retry_blocked (fun _ s => Inv c o n {} s) := by
  refine .get_bind (fun s₀ => (retry_loop_meets fits _).pre ?_)
  rintro s ⟨rfl,inv⟩ -
  exact ⟨inv,Nat.min_le_right ..⟩

/-! ## Restarts -/

theorem respawn_meets (fits : c.mailbox.capacity < 2 ^ 64) (ord : Nat) :
    Meets (setting c) (fun s => Inv c o n { fallen := some (ord,true), granted := some ord } s) (respawn ord)
      (fun _ s => Inv c o n {} s) := by
  unfold respawn
  refine .get_bind (fun s₀ => .lift_bind ?_ (fun led found => ?_))
  · rintro e missing s ⟨rfl,inv⟩ -
    obtain ⟨led,there,-⟩ := inv.fallen_led
    rw [index_error missing] at there
    cases there
  have found := index_ok found
  -- From here on the state is a function of the one the method started in.
  let start (s : Sim) : Prop := s = s₀ ∧ Inv c o n { fallen := some (ord,true), granted := some ord } s₀
  let bumped : Sim := { s₀ with ledger := s₀.ledger.modify ord reborn }
  refine .bind (fun _ s => s = bumped ∧ start s₀) (.modify _ (fun s => ?_) ?_) (fun _ => .lift_bind ?_ (fun old current => ?_))
  · exact ⟨grows_modify _ _ _ (fun led => Nat.le_succ _),Nat.le_refl _⟩
  · rintro s ⟨rfl,inv⟩ -
    exact ⟨rfl,rfl,inv⟩
  · rintro e missing s ⟨-,-,inv⟩ -
    obtain ⟨led,-,-,there⟩ := inv.fallen_led
    rw [index_error missing] at there
    cases there
  have current := index_ok current
  have actor : start s₀ → old = idOf ord led := by
    rintro ⟨-,inv⟩
    obtain ⟨led',found',-,there⟩ := inv.fallen_led
    rw [found] at found'
    cases found'
    rw [current] at there
    exact Option.some.inj there
  let retired : Sim := bumped.retire ord old
  refine .bind (fun _ s => s = retired ∧ start s₀) (.modify _ (fun s => grows_same rfl) ?_) (fun _ => ?_)
  · rintro s ⟨rfl,here⟩ -
    exact ⟨rfl,here⟩
  refine .bind (fun result s => result = (retired.register ord (led.incarnation + 1)).1 ∧
      s = (retired.register ord (led.incarnation + 1)).2 ∧ start s₀)
    (.modifyGet _ (fun s => grows_same rfl) ?_) (fun registered => .lift_bind ?_ (fun mb _ => ?_))
  · rintro s ⟨rfl,here⟩ -
    exact ⟨rfl,rfl,here⟩
  · rintro e failed s ⟨rfl,rfl,here⟩ ⟨distinct,-⟩
    obtain ⟨mb,s',registers,-⟩ := here.2.respawned found distinct
    rw [← actor here] at registers
    rw [show retired.register ord (led.incarnation + 1) = (.ok mb,s') from registers] at failed
    cases failed
  refine .bind (fun _ s => Inv c o n {} s ∧ ord < n) (.modify _ (fun s => grows_same rfl) ?_)
    (fun _ => start_meets fits ord)
  rintro s ⟨-,rfl,here⟩ ⟨distinct,-⟩
  obtain ⟨mb,s',registers,inv'⟩ := here.2.respawned found distinct
  rw [← actor here] at registers
  rw [show retired.register ord (led.incarnation + 1) = (.ok mb,s') from registers]
  refine ⟨inv',?_⟩
  rw [← here.2.count]
  exact (List.getElem?_eq_some_iff.mp found).1

/-- The mailbox of a fallen actor is empty. -/
theorem fallen_len {s : Sim} {ord : Nat} {settled : Bool} {led : ActorLedger} (down : Fallen s.registry settled ord led) :
    ((s.registry.get_mailbox (idOf ord led)).map (·.len)).getD 0 = 0 := by
  obtain ⟨e,entry,-⟩ := down.entry
  obtain ⟨mb,box,empty⟩ := down.mailbox
  have present : s.registry.get_mailbox (idOf ord led) = some mb := by
    rw [ActorRegistry.get_mailbox,entry]
    exact box
  rw [present]
  exact empty

theorem kill_meets (ord : Nat) :
    Meets (setting c) (fun s => Inv c o n { fallen := some (ord,true) } s) (kill ord) (fun _ s => Inv c o n {} s) := by
  unfold kill
  refine .get_bind (fun s₀ => .lift_bind ?_ (fun id current => .lift_bind ?_ (fun led _ => ?_)))
  · rintro e missing s ⟨rfl,inv⟩ -
    obtain ⟨led,-,-,there⟩ := inv.fallen_led
    rw [index_error missing] at there
    cases there
  · rintro e missing s ⟨rfl,inv⟩ -
    obtain ⟨led,there,-⟩ := inv.fallen_led
    rw [index_error missing] at there
    cases there
  have grows : ∀ s : Sim, (setting c).Grows s (s.bury ord id (((s₀.registry.get_mailbox id).map (·.len)).getD 0)) :=
    fun s => ⟨grows_modify _ _ _ (fun _ => Nat.le_refl _),Nat.le_refl _⟩
  refine .modify _ grows ?_
  rintro s ⟨rfl,inv⟩ after
  have distinct : Distinct s.ledger := ((setting c).inherit (grows s) after).1
  obtain ⟨led,found,down,there⟩ := inv.fallen_led
  rw [index_ok current] at there
  cases there
  rw [fallen_len down]
  exact inv.buried distinct found

/-- After the answer of the supervisor, as soon as it is traced. -/
def Answered (c : SimConfig) (o : Outside) (n ord : Nat) (result : Except Error Unit) (s : Sim) : Prop :=
  match result with
  | .ok _ => Inv c o n { fallen := some (ord,true), granted := some ord } (s.traced (.Restart (.ofNat ord) true))
  | .error _ => Inv c o n { fallen := some (ord,true) } (s.traced (.Restart (.ofNat ord) false))

theorem handle_restart_meets (fits : c.mailbox.capacity < 2 ^ 64) (close : Close o) (small : n < 2 ^ 64) (ord : Nat) :
    Meets (setting c) (fun s => Inv c o n { fallen := some (ord,true) } s) (handle_restart ord)
      (fun _ s => Inv c o n {} s) := by
  unfold handle_restart
  refine .bind (Answered c o n ord)
    (.modifyGet _ (fun s => grows_same rfl) (fun s inv _ => inv.reported close small)) (fun result => ?_)
  cases result with
  | ok _ =>
    refine .bind _ (.modify _ (fun s => grows_same rfl) (fun s inv _ => ?_)) (fun _ => respawn_meets fits ord)
    exact Inv.counted inv { s.stats with restarted := s.stats.restarted + 1 } ⟨rfl,rfl,rfl⟩
  | error _ => exact .bind _ (.modify _ (fun s => grows_same rfl) (fun s inv _ => inv)) (fun _ => kill_meets ord)

/-! ## Crashes -/

theorem lose_unprocessed_meets {fallen : Option (Nat × Bool)} (mid : Nat) (loose : List Nat) :
    Meets (setting c) (fun s => Inv c o n { fallen, loose := mid :: loose } s) (lose_unprocessed mid)
      (fun _ s => Inv c o n { fallen, loose } s) := by
  unfold lose_unprocessed
  refine .get_bind (fun s₀ => .lift_bind ?_ (fun times found => ?_))
  · rintro e missing s ⟨rfl,inv⟩ -
    have none := index_error missing
    rw [List.getElem?_eq_none_iff] at none
    have inside : mid < s.mid_times.length := inv.ids.in_range
    omega
  have count : timesOf s₀.mid_times mid = times := by
    rw [timesOf,index_ok found]
    rfl
  split
  · next zero =>
    refine .modify _ (fun s => grows_same rfl) ?_
    rintro s ⟨rfl,inv⟩ -
    exact inv.lost_unprocessed.1 (count.trans zero)
  · next some =>
    refine .pure _ ?_
    rintro s ⟨rfl,inv⟩ -
    exact inv.lost_unprocessed.2 (by rw [count]; exact some)

theorem settle_crash_meets (ord : Nat) (mids : List Nat) :
    Meets (setting c) (fun s => Inv c o n { fallen := some (ord,false), loose := mids } s) (settle_crash ord mids)
      (fun _ s => Inv c o n { fallen := some (ord,true) } s) := by
  unfold settle_crash
  refine .get_bind (fun s₀ => .lift_bind ?_ (fun id current => .lift_bind ?_ (fun led found => ?_)))
  · rintro e missing s ⟨rfl,inv⟩ -
    obtain ⟨led,-,-,there⟩ := inv.fallen_led
    rw [index_error missing] at there
    cases there
  · rintro e missing s ⟨rfl,inv⟩ -
    obtain ⟨led,there,-⟩ := inv.fallen_led
    rw [index_error missing] at there
    cases there
  have grows : ∀ s : Sim, (setting c).Grows s (s.destroy ord (((s₀.registry.get_mailbox id).map (·.len)).getD 0) led) :=
    fun s => ⟨grows_modify _ _ _ (fun _ => Nat.le_refl _),Nat.le_refl _⟩
  refine .bind (fun _ s => Inv c o n { fallen := some (ord,true), loose := mids } s) (.modify _ grows ?_) (fun _ => ?_)
  · rintro s ⟨rfl,inv⟩ after
    have distinct : Distinct s.ledger := ((setting c).inherit (grows s) after).1
    obtain ⟨led',found',down,there⟩ := inv.fallen_led
    rw [index_ok found] at found'
    cases found'
    rw [index_ok current] at there
    cases there
    rw [fallen_len down]
    exact inv.destroyed distinct (index_ok found)
  refine .bind (fun _ s => Inv c o n { fallen := some (ord,true), loose := [] } s)
    (Meets.forM (fun rest s => Inv c o n { fallen := some (ord,true), loose := rest } s)
      (fun mid rest => lose_unprocessed_meets mid rest) mids) (fun _ => ?_)
  exact .modify _ (fun s => grows_same rfl) (fun s inv _ => inv.traced (fun _ _ same => by cases same))

/-! ## Processing -/

/-- Records that are still to be settled, all of one current actor. -/
structure Unsettled (c : SimConfig) (o : Outside) (n ord : Nat) (records : List ExecRecord) (s : Sim) : Prop where
  inv : Inv c o n { loose := midsOf records } (credited ord records.length s)
  known : ∀ record ∈ records, s.ordinals.lookup record.actor.uuid = some ord
  small : ord < n

theorem settle_record_meets (ord : Nat) (record : ExecRecord) (records : List ExecRecord) :
    Meets (setting c) (fun s => Unsettled c o n ord (record :: records) s) (settle_record record)
      (fun _ s => Unsettled c o n ord records s) := by
  unfold settle_record
  refine .get_bind (fun s₀ => .lift_bind ?_ (fun found owner => .lift_bind ?_ (fun led _ => ?_)))
  · rintro e failed s ⟨rfl,left⟩ -
    rw [left.known record List.mem_cons_self] at failed
    cases failed
  · rintro e missing s ⟨rfl,left⟩ -
    have none := index_error missing
    rw [List.getElem?_eq_none_iff] at none
    rw [left.known record List.mem_cons_self] at owner
    cases owner
    have count : (s.ledger.modify ord _).length = n := left.inv.count
    rw [List.length_modify] at count
    have := left.small
    omega
  let consumed (s : Sim) : Sim := { s with
    ledger := s.ledger.modify found (fun led => { led with consumed := led.consumed + 1 }) }
  refine .bind (fun _ s => s = consumed s₀ ∧ found = ord ∧ Unsettled c o n ord (record :: records) s₀)
    (.modify _ (fun s => ⟨grows_modify _ _ _ (fun _ => Nat.le_refl _),Nat.le_refl _⟩) ?_) (fun _ => ?_)
  · rintro s ⟨rfl,left⟩ -
    rw [left.known record List.mem_cons_self] at owner
    cases owner
    exact ⟨rfl,rfl,left⟩
  split
  · next mid tagged =>
    have told : midsOf (record :: records) = mid.toNat :: midsOf records := by
      simp [midsOf,tagged]
    refine .lift_bind ?_ (fun times counted => .modify _ (fun s => grows_same rfl) ?_)
    · rintro e missing s ⟨-,-,left⟩ -
      have none := index_error missing
      rw [List.getElem?_eq_none_iff] at none
      have inv := left.inv
      rw [told] at inv
      have inside : mid.toNat < s₀.mid_times.length := inv.ids.in_range
      omega
    · rintro s ⟨rfl,rfl,left⟩ -
      have inv := left.inv
      rw [told] at inv
      have count : timesOf s₀.mid_times mid.toNat = times := by
        rw [timesOf,index_ok counted]
        rfl
      have settled := inv.settled_custom mid (.ofNat found)
      rw [count] at settled
      exact ⟨settled,fun other member => left.known other (List.mem_cons_of_mem _ member),left.small⟩
  · next tagged =>
    have told : midsOf (record :: records) = midsOf records := by
      simp [midsOf,tagged]
    refine .modify _ (fun s => grows_same rfl) ?_
    rintro s ⟨rfl,rfl,left⟩ -
    have inv := left.inv
    rw [told] at inv
    exact ⟨inv.settled_system (.ofNat found),fun other member => left.known other (List.mem_cons_of_mem _ member),left.small⟩

/-- What a chosen task finds: its actor is registered and viable. -/
structure Runnable (c : SimConfig) (o : Outside) (n : Nat) (t : SimTask) (s : Sim) : Prop where
  inv : Inv c o n { held := [t], loose := t.mids } s
  viable : ∃ e, s.registry.by_id.lookup t.task.actor_id = some e ∧ Viable e.state

theorem Runnable.stable {t : SimTask} {s : Sim} (rng : SimRng) (runnable : Runnable c o n t s) :
    Runnable c o n t { s with rng } := ⟨{ runnable.inv with },runnable.viable⟩

/-- The actor of a runnable task. -/
theorem Runnable.actor {t : SimTask} {s : Sim} (runnable : Runnable c o n t s) (distinct : Distinct s.ledger) :
    ∃ led mb, s.ledger[t.ord]? = some led ∧ led.alive = true ∧ t.task.actor_id = idOf t.ord led ∧
      s.registry.mailboxes.lookup t.task.actor_id = some mb := by
  obtain ⟨e,entry,-⟩ := runnable.viable
  obtain ⟨led,found,lives,addressed,alive⟩ := runnable.inv.world.current distinct List.mem_cons_self entry
  obtain ⟨mb,box,-⟩ := alive.mailbox
  exact ⟨led,mb,found,lives,addressed,by rw [addressed]; exact box⟩

/-- The identities of a task fit into a payload. -/
theorem small_mids {hand : Hand} {s : Sim} (inv : Inv c o n hand s) : ∀ mid ∈ hand.loose, mid < 2 ^ 64 := by
  intro mid member
  have issued := inv.ids.issued mid (List.mem_append_left _ member)
  have room := inv.ids.room
  have size := inv.size
  have bound := c.messages.toNat_lt
  omega

/-- The pipeline ends: with a crash or with the records of all messages. -/
theorem Runnable.ends (fits : c.mailbox.capacity < 2 ^ 64) {t : SimTask} {s : Sim} (runnable : Runnable c o n t s)
    (distinct : Distinct s.ledger) (crash : Bool) :
    ∃ p, sim_process_task s.registry t.task (s.executor.arm_crash crash) = .ok p ∧
      (crash = true → p.executor.records = [] ∧ Inv c o n { fallen := some (t.ord,false), loose := t.mids } { s with
        registry := p.shared.registry, executor := (p.executor.drain_records.2).arm_crash false }) ∧
      (crash = false → p.processed = p.executor.records.length ∧ Unsettled c o n t.ord p.executor.records { s with
        registry := p.shared.registry, executor := (p.executor.drain_records.2).arm_crash false }) := by
  obtain ⟨led,mb,found,lives,addressed,box⟩ := runnable.actor distinct
  obtain ⟨e,entry,viable⟩ := runnable.viable
  obtain ⟨mail,-⟩ := runnable.inv.world.tasks t List.mem_cons_self
  have calm := runnable.inv.calm
  cases crash with
  | true =>
    obtain ⟨p,ran,registry,executor⟩ := task_crashed entry viable box
      (show (s.executor.arm_crash true).crash_next = true from rfl)
    refine ⟨p,ran,fun _ => ?_,(fun off => by cases off)⟩
    rw [calm] at executor
    have crashed := runnable.inv.crashed fits distinct found lives addressed
    rw [executor,registry]
    exact ⟨rfl,crashed⟩
  | false =>
    obtain ⟨p,ran,served,executor,processed⟩ := task_executed fits entry viable box
      (show (s.executor.arm_crash false).crash_next = false from rfl) (mail_ordinary mail)
    refine ⟨p,ran,(fun armed => by cases armed),fun _ => ?_⟩
    rw [calm] at executor
    have records : p.executor.records = t.task.messages.map (recordOf t.task.actor_id) := by
      rw [executor]
      rfl
    have length : p.executor.records.length = t.task.messages.length := by
      rw [records,List.length_map]
    have told : midsOf p.executor.records = t.mids := by
      rw [records]
      exact midsOf_mail _ mail (small_mids runnable.inv)
    have rested : (p.executor.drain_records.2).arm_crash false = {} := by
      rw [executor]
      rfl
    refine ⟨processed.trans length.symm,?_,fun record member => ?_,?_⟩
    · rw [told,length,rested]
      exact runnable.inv.served distinct found lives addressed served
    · rw [records] at member
      obtain ⟨m,-,rfl⟩ := List.mem_map.mp member
      show s.ordinals.lookup t.task.actor_id.uuid = some t.ord
      rw [addressed]
      exact runnable.inv.world.ordinals t.ord led found lives
    · rw [← runnable.inv.count]
      exact (List.getElem?_eq_some_iff.mp found).1

/-- What a task in process has left behind. -/
def Ran (c : SimConfig) (o : Outside) (n : Nat) (t : SimTask) (crash : Bool) (result : Nat × List ExecRecord) (s : Sim) :
    Prop :=
  (crash = true → result.2 = [] ∧ Inv c o n { fallen := some (t.ord,false), loose := t.mids } s) ∧
  (crash = false → result.1 = result.2.length ∧ Unsettled c o n t.ord result.2 s)

theorem run_task_meets (fits : c.mailbox.capacity < 2 ^ 64) (t : SimTask) (crash : Bool) :
    Meets (setting c) (fun s => Runnable c o n t s) (run_task t.task crash) (fun result s => Ran c o n t crash result s) := by
  unfold run_task
  refine .get_bind (fun s₀ => .lift_bind ?_ (fun p ran => ?_))
  · rintro e failed s ⟨rfl,runnable⟩ ⟨distinct,-⟩
    obtain ⟨p,ran,-⟩ := runnable.ends fits distinct crash
    rw [ran] at failed
    cases failed
  refine .bind (fun _ s => Ran c o n t crash (p.processed,p.executor.drain_records.1) s)
    (.modify _ (fun s => grows_same rfl) ?_) (fun _ => .pure _ (fun s after _ => after))
  rintro s ⟨rfl,runnable⟩ ⟨distinct,-⟩
  obtain ⟨p',ran',after⟩ := runnable.ends fits distinct crash
  rw [ran] at ran'
  cases ran'
  exact after

/-- All records of a task are settled; a crash has none. -/
theorem settle_records_meets (t : SimTask) (crash : Bool) (records : List ExecRecord) :
    Meets (setting c) (fun s => (crash = true → records = [] ∧ Inv c o n { fallen := some (t.ord,false), loose := t.mids } s) ∧
        (crash = false → Unsettled c o n t.ord records s)) (records.forM settle_record)
      (fun _ s => (crash = true → Inv c o n { fallen := some (t.ord,false), loose := t.mids } s) ∧
        (crash = false → Inv c o n {} s)) := by
  cases crash with
  | true =>
    refine (Meets.forM (fun rest s => rest = [] ∧ Inv c o n { fallen := some (t.ord,false), loose := t.mids } s)
      (fun record rest => ?_) records).weaken ?_ ?_
    · refine .unreached (settle_record_meets (c := c) (o := o) (n := n) t.ord record rest).grows ?_
      rintro s ⟨none,-⟩
      cases none
    · exact fun s before _ => before.1 rfl
    · exact fun _ s after => ⟨fun _ => after.2,(fun off => by cases off)⟩
  | false =>
    refine (Meets.forM (fun rest s => Unsettled c o n t.ord rest s) (settle_record_meets t.ord) records).weaken ?_ ?_
    · exact fun s before _ => before.2 rfl
    · intro _ s left
      refine ⟨(fun armed => by cases armed),fun _ => ?_⟩
      have inv := left.inv
      rw [List.length_nil,credited_zero] at inv
      exact inv

/-- Outside of crashes everybody who is registered is viable. -/
theorem registered_viable {hand : Hand} {s : Sim} (inv : Inv c o n hand s) (up : hand.fallen = none) {id : ActorId}
    {e : ActorEntry} (entry : s.registry.by_id.lookup id = some e) : Viable e.state := by
  obtain ⟨ord,led,found,lives,rfl⟩ := inv.world.ids id e entry
  obtain ⟨e',entry',viable,-⟩ := (inv.world.alive ord led found lives (by rw [up]; simp)).entry
  rw [entry] at entry'
  cases entry'
  exact viable

theorem discard_frame (t : SimTask) (s : Sim) : (s.discard t).ledger = s.ledger ∧ (s.discard t).tick = s.tick := by
  show (t.mids.foldl Sim.mark_lost s).ledger = s.ledger ∧ (t.mids.foldl Sim.mark_lost s).tick = s.tick
  generalize t.mids = mids
  induction mids generalizing s with
  | nil => exact ⟨rfl,rfl⟩
  | cons mid mids ih => exact ih (s.mark_lost mid)

theorem process_chosen_meets (fits : c.mailbox.capacity < 2 ^ 64) (close : Close o) (small : n < 2 ^ 64) (t : SimTask) :
    Meets (setting c) (fun s => Inv c o n { held := [t], chosen := [t], loose := t.mids } s) (process_chosen t)
      (fun _ s => Inv c o n {} s) := by
  unfold process_chosen
  refine .get_bind (fun s₀ => .lift_bind ?_ (fun led found => .lift_bind ?_ (fun queued subtracted => ?_)))
  · rintro e missing s ⟨rfl,inv⟩ -
    obtain ⟨-,led,there,-⟩ := inv.world.tasks t List.mem_cons_self
    rw [index_error missing] at there
    cases there
  · rintro e failed s ⟨rfl,inv⟩ -
    have covered := (inv.unbooked (index_ok found)).1
    unfold subtract at failed
    rw [if_pos covered] at failed
    cases failed
  have difference : queued = led.queued - t.app_len := subtract_ok subtracted
  refine .bind (fun _ s => s.registry = s₀.registry ∧ Inv c o n { held := [t], loose := t.mids } s)
    (.modify _ (fun s => ⟨grows_modify _ _ _ (fun _ => Nat.le_refl _),Nat.le_refl _⟩) ?_) (fun _ => ?_)
  · rintro s ⟨rfl,inv⟩ -
    have unbooked := (inv.unbooked (index_ok found)).2
    rw [← difference] at unbooked
    exact ⟨rfl,unbooked⟩
  -- A task that runs, and one that finds nobody.
  have runs : ∀ state, Viable state → s₀.registry.get_state t.task.actor_id = some state →
      Meets (setting c) (fun s => s.registry = s₀.registry ∧ Inv c o n { held := [t], loose := t.mids } s)
        (execute_chosen t s₀.config.faults.crash_prob) (fun _ s => Inv c o n {} s) := by
    intro state viable registered
    refine .bind (fun _ s => Runnable c o n t s) ?_ (fun crash => ?_)
    · refine (roll_if_meets (P := fun s => Runnable c o n t s) _ _ (fun s rng => Runnable.stable rng)).weaken ?_
        (fun _ s after => after.1)
      rintro s ⟨same,inv⟩ -
      unfold ActorRegistry.get_state at registered
      obtain ⟨e,entry,rfl⟩ := Option.map_eq_some_iff.mp registered
      exact ⟨inv,e,by rw [same]; exact entry,viable⟩
    refine .bind _ (run_task_meets fits t crash) (fun result => ?_)
    obtain ⟨processed,records⟩ := result
    refine .lift_bind ?_ (fun _ _ => ?_)
    · rintro e failed s ran -
      unfold holds_or at failed
      rw [if_pos (fun calm => (ran.2 calm).1)] at failed
      cases failed
    refine .bind _ ((settle_records_meets (c := c) (o := o) (n := n) t crash records).pre ?_) (fun _ => ?_)
    · exact fun s ran _ => ⟨ran.1,fun calm => (ran.2 calm).2⟩
    cases crash with
    | false => exact .pure _ (fun s after _ => after.2 rfl)
    | true =>
      refine .bind (fun _ s => Inv c o n { fallen := some (t.ord,false), loose := t.mids } s)
        (.modify _ (fun s => grows_same rfl) (fun s after _ => ?_)) (fun _ => ?_)
      · exact (after.1 rfl).counted { s.stats with crashed := s.stats.crashed + 1 } ⟨rfl,rfl,rfl⟩
      · exact .bind _ (settle_crash_meets t.ord t.mids) (fun _ => handle_restart_meets fits close small t.ord)
  have discards : (∀ e, s₀.registry.by_id.lookup t.task.actor_id = some e → ¬ Viable e.state) →
      Meets (setting c) (fun s => s.registry = s₀.registry ∧ Inv c o n { held := [t], loose := t.mids } s)
        (modify (·.discard t)) (fun _ s => Inv c o n {} s) := by
    intro unviable
    refine .modify _ (fun s => grows_same (discard_frame t s).1 (discard_frame t s).2) ?_
    rintro s ⟨same,inv⟩ -
    refine inv.discard ?_
    cases entry : s.registry.by_id.lookup t.task.actor_id with
    | none => rfl
    | some e => exact absurd (registered_viable inv rfl entry) (unviable e (by rw [← same]; exact entry))
  have looked : ∀ e, s₀.registry.by_id.lookup t.task.actor_id = some e →
      s₀.registry.get_state t.task.actor_id = some e.state := by
    intro e entry
    rw [ActorRegistry.get_state,entry]
    rfl
  have unfit : ∀ state, ¬ Viable state → s₀.registry.get_state t.task.actor_id = some state →
      ∀ e, s₀.registry.by_id.lookup t.task.actor_id = some e → ¬ Viable e.state := by
    intro state unviable registered e entry
    have same := (looked e entry).symm.trans registered
    rw [Option.some.inj same]
    exact unviable
  split
  · next state => exact runs .Creating trivial state
  · next state => exact runs .Running trivial state
  · next state => exact discards (unfit .Suspended id state)
  · next state => exact discards (unfit .Stopped id state)
  · next state => exact discards (unfit .Failed id state)
  · next state => exact discards (fun e entry => by
      have same := (looked e entry).symm.trans state
      cases same)

/-- With the task that was picked in hand. -/
def Picked (c : SimConfig) (o : Outside) (n : Nat) (picked : Option SimTask) (s : Sim) : Prop :=
  match picked with
  | some t => Inv c o n { held := [t], chosen := [t], loose := t.mids } s
  | none => Inv c o n {} s

theorem process_ready_meets (fits : c.mailbox.capacity < 2 ^ 64) (close : Close o) (small : n < 2 ^ 64) (draws : Nat) :
    Meets (setting c) (fun s => Inv c o n {} s) (process_ready draws) (fun _ s => Inv c o n {} s) := by
  induction draws with
  | zero => exact .pure _ (fun s inv _ => inv)
  | succ draws ih =>
    unfold process_ready
    refine .bind (Picked c o n) ?_ (fun picked => ?_)
    · unfold pick_next
      refine .get_bind (fun s₀ => .lift_bind ?_ (fun result picks => ?_))
      · intro e failed
        obtain ⟨result,total⟩ := ReadySet.pick_total s₀.ready s₀.config.policy s₀.rng s₀.tick
        rw [total] at failed
        cases failed
      obtain ⟨picked,ready,rng⟩ := result
      have taken := ReadySet.pick_tasks picks
      refine .bind _ (.modify _ (fun s => grows_same rfl) (fun s before _ => ?_)) (fun _ => .pure _ (fun s after _ => after))
      obtain ⟨rfl,inv⟩ := before
      cases picked with
      | some t => exact inv.picked taken rng
      | none =>
        have same : ready = s.ready := taken
        subst same
        exact { inv with }
    · cases picked with
      | some t => exact .bind _ (process_chosen_meets fits close small t) (fun _ => ih)
      | none => exact .pure _ (fun s inv _ => inv)

/-! ## Audits -/

theorem audit_actor_passes {s : Sim} (inv : Inv c o n {} s) {ord : Nat} {led : ActorLedger}
    (found : s.ledger[ord]? = some led) : s.audit_actor led ord = .ok () := by
  unfold Sim.audit_actor
  split
  · next lives =>
    have alive := inv.world.alive ord led found lives (by simp)
    obtain ⟨mb,box,-,-,balance⟩ := alive.mailbox
    obtain ⟨mb',present,box',sound⟩ := alive_mailbox alive
    rw [box] at box'
    cases box'
    have current : index s.actors ord = .ok (idOf ord led) := by
      unfold index
      rw [inv.world.actors,found]
      rfl
    have size := sound.size
    have len : mb.len = led.delivered - led.consumed - led.dropped := by
      unfold Mailbox.len
      omega
    rw [current]
    simp only [bind,Except.bind,present]
    exact if_pos len
  · rfl

theorem audit_actors_pass {s : Sim} (inv : Inv c o n {} s) :
    s.ledger.zipIdx.forM (fun (led,ord) => s.audit_actor led ord) = .ok () := by
  refine forM_ok (fun entry member => ?_)
  obtain ⟨led,ord⟩ := entry
  exact audit_actor_passes inv (List.mem_zipIdx_iff_getElem?.mp member)

theorem audit_counts_passes {s : Sim} (inv : Inv c o c.actors.toNat {} s) :
    s.audit_counts = .ok () ∨ s.audit_counts = .error .Overflow ∧ Excessive c := by
  unfold Sim.audit_counts
  rw [audit_actors_pass inv]
  show (if 0 < s.config.max_restarts then s.audit_restarts else .ok ()) = .ok () ∨
    (if 0 < s.config.max_restarts then s.audit_restarts else .ok ()) = .error .Overflow ∧ Excessive c
  split
  · next limited =>
    obtain ⟨sup,root,kept⟩ := inv.root
    have all : (incsOf s.ledger).length = s.config.actors.toNat := by
      rw [inv.sameConfig,← inv.count]
      exact List.length_map ..
    rcases audit_restarts_passes s root limited all (inv.sameConfig ▸ kept) with passed | ⟨overflow,excess⟩
    · exact .inl passed
    · rw [inv.sameConfig] at excess
      exact .inr ⟨overflow,.inr excess⟩
  · exact .inl rfl

/-- In a quiescent world nothing is pending. -/
theorem quiescent_pending {s : Sim} (quiescent : s.is_quiescent = true) : pendingOf s = [] := by
  simp only [Sim.is_quiescent,Bool.and_eq_true,decide_eq_true_eq,ReadySet.is_empty,List.isEmpty_iff] at quiescent
  obtain ⟨⟨⟨⟨⟨-,delayed⟩,blocked⟩,priority,ready⟩,-⟩,-⟩ := quiescent
  simp [pendingOf,ReadySet.tasks,delayed,blocked,priority,ready]

/-- The delivery accounting of one message, at quiescence. -/
theorem identity_closed {s : Sim} (inv : Inv c o n {} s) (quiescent : s.is_quiescent = true) {mid : Nat}
    (issued : mid < s.next_mid) :
    (1 ≤ timesOf s.mid_times mid ∨ lostOf s.mid_lost mid = true) ∧
      (c.faults.duplicate_prob = .zero → timesOf s.mid_times mid ≤ 1) := by
  have ids := inv.ids
  rw [quiescent_pending quiescent] at ids
  refine ⟨(ids.covered mid issued).resolve_left (fun waiting => by cases waiting),fun once => ?_⟩
  have single := ids.single once mid
  omega

theorem audit_identities_passes {s : Sim} (inv : Inv c o n {} s) (quiescent : s.is_quiescent = true) :
    s.audit_identities = .ok () := by
  unfold Sim.audit_identities
  refine forM_ok (fun entry member => ?_)
  obtain ⟨times,mid⟩ := entry
  have found := List.mem_zipIdx_iff_getElem?.mp member
  have issued : mid < s.next_mid := by
    have inside := (List.getElem?_eq_some_iff.mp found).1
    rw [List.length_take] at inside
    omega
  rw [List.getElem?_take_of_lt issued] at found
  obtain ⟨accounted,once⟩ := identity_closed inv quiescent issued
  have count : timesOf s.mid_times mid = times := by
    rw [timesOf,found]
    rfl
  rw [count] at accounted once
  have inside : mid < s.mid_lost.length := by
    rw [inv.ids.sizes]
    exact Nat.lt_of_lt_of_le issued inv.ids.room
  have lost : index s.mid_lost mid = .ok (lostOf s.mid_lost mid) := by
    unfold index lostOf
    rw [List.getElem?_eq_getElem inside]
    rfl
  show s.audit_identity times mid = .ok ()
  unfold Sim.audit_identity
  rw [lost]
  show (holds_or (1 ≤ times ∨ lostOf s.mid_lost mid = true) _ >>= fun _ => _) = _
  rw [holds_or,if_pos accounted]
  show (if s.config.faults.duplicate_prob = .zero then holds_or (times ≤ 1) _ else .ok ()) = _
  split
  · next zero => exact if_pos (once (by rw [← inv.sameConfig]; exact zero))
  · rfl

/-- The messages in the mailboxes of the live actors. -/
def liveQueued (s : Sim) : Nat :=
  ((s.ledger.zip s.actors).map (fun (led,id) =>
    if led.alive then ((s.registry.get_mailbox id).map (·.len)).getD 0 else 0)).sum

/-- Every delivered copy is processed, dropped or in the mailbox of a live actor. -/
theorem deliveries_balance {s : Sim} (inv : Inv c o n {} s) :
    s.stats.delivered = s.stats.processed + s.stats.system_processed + s.stats.dropped + liveQueued s := by
  have lengths : s.ledger.length = s.actors.length := inv.world.lengths.symm
  have along : ∀ count : ActorLedger → Nat, (s.ledger.map count).sum = ((s.ledger.zip s.actors).map (fun p => count p.1)).sum := by
    intro count
    rw [show (fun p : ActorLedger × ActorId => count p.1) = count ∘ Prod.fst from rfl,← List.map_map,
      List.map_fst_zip (Nat.le_of_eq lengths)]
  have each : ∀ p ∈ s.ledger.zip s.actors, p.1.delivered = p.1.consumed + p.1.dropped +
      (if p.1.alive then ((s.registry.get_mailbox p.2).map (·.len)).getD 0 else 0) := by
    rintro ⟨led,id⟩ member
    obtain ⟨ord,at_⟩ := List.mem_iff_getElem?.mp member
    obtain ⟨found,current⟩ := List.getElem?_zip_eq_some.mp at_
    rw [inv.world.actors,found] at current
    obtain rfl : idOf ord led = id := Option.some.inj current
    by_cases lives : led.alive = true
    · have alive := inv.world.alive ord led found lives (by simp)
      obtain ⟨mb,box,-,-,balance⟩ := alive.mailbox
      obtain ⟨mb',present,box',sound⟩ := alive_mailbox alive
      rw [box] at box'
      cases box'
      have size := sound.size
      rw [if_pos lives]
      show led.delivered = led.consumed + led.dropped + ((s.registry.get_mailbox (idOf ord led)).map (·.len)).getD 0
      rw [present]
      show led.delivered = led.consumed + led.dropped + mb.size
      omega
    · rw [if_neg lives]
      exact (inv.world.dead ord led found (by simpa using lives)).2
  rw [inv.totals.delivered,inv.totals.consumed,inv.totals.dropped,along,along,along,List.map_congr_left each,
    List.sum_map_add,List.sum_map_add]
  rfl

/-! ## Runs -/

theorem round_meets (fits : c.mailbox.capacity < 2 ^ 64) (positive : 0 < c.actors.toNat) (close : Close o) :
    Meets (setting c) (fun s => Inv c o c.actors.toNat {} s) sim.round (fun _ s => Inv c o c.actors.toNat {} s) := by
  have small : c.actors.toNat < 2 ^ 64 := c.actors.toNat_lt
  unfold sim.round
  refine .get_bind (fun s₀ => .lift_bind ?_ (fun tick _ => ?_))
  · rintro e failed s ⟨rfl,-⟩ ⟨-,late⟩
    simp only [longest,DUPLICATE_GAP_TICKS] at late
    exact absurd failed (checked_fits (by omega))
  refine .bind (fun _ s => Inv c o c.actors.toNat {} s)
    (.modify _ (fun s => ⟨grows_refl s.ledger,Nat.le_succ s.tick⟩) ?_) (fun _ => ?_)
  · rintro s ⟨-,inv⟩ -
    exact { inv with }
  refine .bind _ (inject_workload_meets fits positive) (fun _ => .bind _ (deliver_due_meets fits) (fun _ => ?_))
  refine .bind _ (retry_blocked_meets fits) (fun _ => .bind _ (process_ready_meets fits close small _) (fun _ => ?_))
  refine .get_bind (fun s₁ => .lift ?_ (fun _ _ s before _ => before.2))
  rintro e failed s ⟨rfl,inv⟩ -
  rcases audit_counts_passes inv with passed | ⟨overflow,excess⟩
  · rw [passed] at failed
    cases failed
  · rw [overflow] at failed
    cases failed
    exact ⟨rfl,excess⟩

theorem rounds_meets (fits : c.mailbox.capacity < 2 ^ 64) (positive : 0 < c.actors.toNat) (close : Close o)
    (steps executed : Nat) :
    Meets (setting c) (fun s => Inv c o c.actors.toNat {} s) (rounds steps executed)
      (fun _ s => Inv c o c.actors.toNat {} s) := by
  induction steps generalizing executed with
  | zero => exact .pure _ (fun s inv _ => inv)
  | succ steps ih =>
    unfold rounds
    refine .get_bind (fun s₀ => ?_)
    split
    · exact .pure _ (fun s before _ => before.2)
    · exact .bind _ ((round_meets fits positive close).pre (fun s before _ => before.2)) (fun _ => ih (executed + 1))

theorem run_meets (fits : c.mailbox.capacity < 2 ^ 64) (positive : 0 < c.actors.toNat) (close : Close o) (steps : Nat) :
    Meets (setting c) (fun s => Inv c o c.actors.toNat {} s) (run steps) (fun _ s => Inv c o c.actors.toNat {} s) := by
  unfold run
  refine .bind _ (rounds_meets fits positive close steps 0) (fun executed => .get_bind (fun s₀ => ?_))
  split
  · next quiescent =>
    refine .lift_bind ?_ (fun _ _ => .pure _ (fun s before _ => before.2))
    rintro e failed s ⟨rfl,inv⟩ -
    rw [audit_identities_passes inv quiescent] at failed
    cases failed
  · exact .pure _ (fun s before _ => before.2)

theorem simulate_meets (fits : c.mailbox.capacity < 2 ^ 64) (positive : 0 < c.actors.toNat) (close : Close o)
    (runs : List Nat) :
    Meets (setting c) (fun s => Inv c o 0 {} s) (do with_config; runs.forM (fun steps => do let _ ← run steps))
      (fun _ s => Inv c o c.actors.toNat {} s) := by
  refine .bind _ (with_config_meets fits) (fun _ => ?_)
  refine Meets.forM (fun _ s => Inv c o c.actors.toNat {} s) (fun steps _ => ?_) runs
  exact .bind _ (run_meets fits positive close steps) (fun _ => .pure _ (fun s inv _ => inv))

end

/-- The message accounts of a world. -/
structure Closed (s : Sim) : Prop where
  deliveries : s.stats.delivered = s.stats.processed + s.stats.system_processed + s.stats.dropped + liveQueued s
  messages : s.is_quiescent = true → ∀ mid < s.next_mid,
    (1 ≤ timesOf s.mid_times mid ∨ lostOf s.mid_lost mid = true) ∧
      (s.config.faults.duplicate_prob = .zero → timesOf s.mid_times mid ≤ 1)

/-- Whatever the draws, no audit, no `expect`, no index and no subtraction of a
    simulation fails, and the message accounts of the world it ends in are closed.
    All that can stop it is arithmetic on an excessive configuration. -/
theorem audits_hold (seed : UInt64) (config : SimConfig) (draws : Nat → UInt64) (outside : Outside) (runs : List Nat)
    (populated : 1 ≤ config.actors) (fits : config.mailbox.capacity < 2 ^ 64) (close : Close outside) :
    match simulate seed config draws outside runs with
    | .ok _ s => Distinct s.ledger → s.tick + longest config < 2 ^ 64 → Closed s
    | .error failure s => Distinct s.ledger → s.tick + longest config < 2 ^ 64 →
        failure = .Overflow ∧ Excessive config := by
  have positive : 0 < config.actors.toNat := UInt64.le_iff_toNat_le.mp populated
  have meets := (simulate_meets fits positive close runs).holds _ (inv_start seed config draws outside)
  unfold simulate EStateM.run
  unfold Program.final at meets
  revert meets
  split
  · next s ended =>
    rw [ended]
    intro meets distinct late
    have inv : Inv config outside config.actors.toNat {} s := meets ⟨distinct,late⟩
    refine ⟨deliveries_balance inv,fun quiescent mid issued => ?_⟩
    rw [inv.sameConfig]
    exact identity_closed inv quiescent issued
  · next failure s failed =>
    rw [failed]
    intro meets distinct late
    exact meets ⟨distinct,late⟩

/-- One actor, one message and a crash at every task. -/
def crashing : SimConfig := { actors := 1, messages := 1, faults := { crash_prob := .finite 1 } }

/-- A clock that stands still. -/
def still : Outside := ⟨fun _ => ⟨0,0⟩,fun k => ⟨.ofNat 128 k⟩⟩

/-- The message of the crashing simulation is lost, and the accounts are closed. -/
theorem audits_hold_crashing : ∃ s, simulate 0 crashing (fun _ => 0) still [3] = .ok () s ∧ s.stats.crashed = 1 ∧
    s.is_quiescent = true ∧ s.next_mid = 1 ∧ Closed s := by
  have ran : (match simulate 0 crashing (fun _ => 0) still [3] with
      | .ok _ s => s.is_quiescent && s.stats.crashed == 1 && s.next_mid == 1 && s.tick == 1 &&
          s.ledger.map (·.incarnation) == [1]
      | .error _ _ => false) = true := by decide +kernel
  have close : Close still := fun _ _ => ⟨show 0 < window by decide,show 0 < window by decide⟩
  have holds := audits_hold 0 crashing (fun _ => 0) still [3] (by decide) (by decide) close
  revert ran holds
  cases simulate 0 crashing (fun _ => 0) still [3] with
  | error failure s => exact fun ran _ => by cases ran
  | ok a s =>
    simp only [Bool.and_eq_true,beq_iff_eq]
    rintro ⟨⟨⟨⟨quiescent,crashed⟩,issued⟩,tick⟩,incarnations⟩ holds
    have few : s.ledger.length = 1 := by
      simpa using congrArg List.length incarnations
    have young : ∀ led ∈ s.ledger, led.incarnation < 2 ^ 21 := by
      intro led member
      have listed : led.incarnation ∈ s.ledger.map (·.incarnation) := List.mem_map_of_mem member
      rw [incarnations,List.mem_singleton] at listed
      omega
    exact ⟨s,rfl,crashed,quiescent,issued,holds (distinct_small (by omega) young) (by rw [tick]; decide)⟩

end ActorKit.Sim.Audits
