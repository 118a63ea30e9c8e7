import ActorKit.Sim.Pipeline
import ActorKit.Sim.Restarts

/-!
# The population of the simulation

How the registry, the current ids, the ledger and the queued tasks belong
together. A live actor is registered under the id of its current incarnation, and
its mailbox holds one message for every message of the queued tasks of that
incarnation. Tasks of older incarnations find nobody. Between the crash of an
actor and its restart or death it is fallen: registered as failed, with an empty
mailbox.
-/

namespace ActorKit.Sim.Population
open ActorKit.mailbox ActorKit.registry ActorKit.queue ActorKit.scheduler ActorKit.sim
open ActorKit.MailboxAccounting ActorKit.MailboxCalls ActorKit.Sim.Pipeline ActorKit.Sim.Texts

/-! ## Distinct ids -/

/-- The incarnations a ledger has seen have distinct ids. -/
def Distinct (ledger : List ActorLedger) : Prop :=
  ∀ (ord ord' : Nat) (led led' : ActorLedger), ledger[ord]? = some led → ledger[ord']? = some led' →
    ∀ inc inc', inc ≤ led.incarnation → inc' ≤ led'.incarnation → sim_actor_id ord inc = sim_actor_id ord' inc' →
      ord = ord' ∧ inc = inc'

/-- No actor is forgotten and no incarnation goes back. -/
def Grows (ledger ledger' : List ActorLedger) : Prop :=
  ∀ (ord : Nat) (led : ActorLedger), ledger[ord]? = some led →
    ∃ led', ledger'[ord]? = some led' ∧ led.incarnation ≤ led'.incarnation

theorem grows_refl (ledger : List ActorLedger) : Grows ledger ledger := fun _ led found => ⟨led,found,Nat.le_refl _⟩

theorem Grows.trans {l₁ l₂ l₃ : List ActorLedger} (first : Grows l₁ l₂) (then_ : Grows l₂ l₃) : Grows l₁ l₃ := by
  intro ord led found
  obtain ⟨led',found',le⟩ := first ord led found
  obtain ⟨led'',found'',le'⟩ := then_ ord led' found'
  exact ⟨led'',found'',Nat.le_trans le le'⟩

theorem grows_modify (ledger : List ActorLedger) (ord : Nat) (f : ActorLedger → ActorLedger)
    (grows : ∀ led, led.incarnation ≤ (f led).incarnation) : Grows ledger (ledger.modify ord f) := by
  intro other led found
  rw [List.getElem?_modify,found]
  by_cases same : ord = other
  · exact ⟨f led,by simp [same],grows led⟩
  · exact ⟨led,by simp [same],Nat.le_refl _⟩

theorem Distinct.anti {ledger ledger' : List ActorLedger} (grows : Grows ledger ledger') (distinct : Distinct ledger') :
    Distinct ledger := by
  intro ord ord' led led' found found' inc inc' small small'
  obtain ⟨later,at_,le⟩ := grows ord led found
  obtain ⟨later',at',le'⟩ := grows ord' led' found'
  exact distinct ord ord' later later' at_ at' inc inc' (by omega) (by omega)

theorem high_half (ord inc : Nat) : (sim_actor_id ord inc).uuid.toNat >>> 64 = ord % 2 ^ 64 := by
  have low : (inc % 2 ^ 64) >>> 64 = 0 := by
    rw [Nat.shiftRight_eq_div_pow]
    exact Nat.div_eq_of_lt (Nat.mod_lt _ (by decide))
  have base : SIM_ID_BASE.toNat >>> 64 = 0 := by decide
  have ordinal : ((ord % 2 ^ 64) <<< 64 % 2 ^ 128) >>> 64 = ord % 2 ^ 64 := by
    have bound : ord % 2 ^ 64 < 2 ^ 64 := Nat.mod_lt _ (by decide)
    rw [Nat.shiftLeft_eq,Nat.mod_eq_of_lt (by omega),Nat.shiftRight_eq_div_pow]
    omega
  simp only [sim_actor_id,BitVec.toNat_or,BitVec.toNat_shiftLeft,BitVec.toNat_setWidth,BitVec.toNat_ofNat,
    Nat.shiftRight_or_distrib]
  rw [Nat.mod_eq_of_lt (a := ord % 2 ^ 64) (by omega),Nat.mod_eq_of_lt (a := inc % 2 ^ 64) (by omega),base,ordinal,low]
  simp

/-- Different actors never share an id. -/
theorem ord_of_id {ord ord' inc inc' : Nat} (small : ord < 2 ^ 64) (small' : ord' < 2 ^ 64)
    (same : sim_actor_id ord inc = sim_actor_id ord' inc') : ord = ord' := by
  have high := high_half ord inc
  rw [same,high_half,Nat.mod_eq_of_lt small,Nat.mod_eq_of_lt small'] at high
  exact high.symm

theorem low_bits (ord inc : Nat) : (sim_actor_id ord inc).uuid.toNat % 2 ^ 21 = inc % 2 ^ 21 := by
  have base : SIM_ID_BASE.toNat % 2 ^ 21 = 0 := by decide
  have ordinal : (ord % 2 ^ 64) <<< 64 % 2 ^ 128 % 2 ^ 21 = 0 := by
    rw [Nat.shiftLeft_eq]
    omega
  simp only [sim_actor_id,BitVec.toNat_or,BitVec.toNat_shiftLeft,BitVec.toNat_setWidth,BitVec.toNat_ofNat,
    Nat.or_mod_two_pow]
  rw [Nat.mod_eq_of_lt (a := ord % 2 ^ 64) (by omega),base,ordinal]
  simp

/-- The first two million incarnations of every actor have distinct ids. -/
theorem distinct_small {ledger : List ActorLedger} (few : ledger.length ≤ 2 ^ 64)
    (young : ∀ led ∈ ledger, led.incarnation < 2 ^ 21) : Distinct ledger := by
  intro ord ord' led led' found found' inc inc' small small' same
  have inside := (List.getElem?_eq_some_iff.mp found).1
  have inside' := (List.getElem?_eq_some_iff.mp found').1
  have bound := young led (List.mem_of_getElem? found)
  have bound' := young led' (List.mem_of_getElem? found')
  refine ⟨ord_of_id (by omega) (by omega) same,?_⟩
  have low := low_bits ord inc
  rw [same,low_bits,Nat.mod_eq_of_lt (by omega),Nat.mod_eq_of_lt (by omega)] at low
  exact low.symm

/-! ## Tasks -/

/-- The messages the simulation sends, and the identities that go with them: one
    start message, or an application message for each identity. -/
def Mail (mids : List Nat) (msgs : List Message) : Prop :=
  mids = [] ∧ msgs = [start_message] ∨ mids ≠ [] ∧ ∃ priority, msgs = mids.map (app_message priority)

theorem mail_ne_nil {mids : List Nat} {msgs : List Message} (mail : Mail mids msgs) : msgs ≠ [] := by
  rcases mail with ⟨-,rfl⟩ | ⟨some,priority,rfl⟩
  · simp
  · simpa using some

theorem mail_ordinary {mids : List Nat} {msgs : List Message} (mail : Mail mids msgs) : ∀ m ∈ msgs, Ordinary m := by
  rcases mail with ⟨-,rfl⟩ | ⟨-,priority,rfl⟩
  · intro m member
    rw [List.mem_singleton.mp member]
    exact .inl rfl
  · intro m member
    obtain ⟨mid,-,rfl⟩ := List.mem_map.mp member
    exact .inr ⟨_,rfl⟩

/-- The messages of queued tasks for one incarnation. -/
def load (id : ActorId) (tasks : List SimTask) : Nat :=
  (tasks.map (fun t => if t.task.actor_id = id then t.task.messages.length else 0)).sum

theorem load_cons (id : ActorId) (t : SimTask) (tasks : List SimTask) :
    load id (t :: tasks) = (if t.task.actor_id = id then t.task.messages.length else 0) + load id tasks := rfl

theorem load_perm (id : ActorId) {tasks tasks' : List SimTask} (same : tasks.Perm tasks') :
    load id tasks = load id tasks' := (same.map _).sum_eq

theorem load_eq_zero {id : ActorId} {tasks : List SimTask} (none : ∀ t ∈ tasks, t.task.actor_id ≠ id) :
    load id tasks = 0 :=
  Counting.sum_map_eq_zero _ _ (fun t member => by simp [none t member])

/-- A task that belongs to some incarnation of its actor. -/
def Belongs (ledger : List ActorLedger) (t : SimTask) : Prop :=
  Mail t.mids t.task.messages ∧ ∃ led, ledger[t.ord]? = some led ∧
    ∃ inc, inc ≤ led.incarnation ∧ t.task.actor_id = sim_actor_id t.ord inc

theorem Belongs.mono {ledger ledger' : List ActorLedger} {t : SimTask} (grows : Grows ledger ledger')
    (belongs : Belongs ledger t) : Belongs ledger' t := by
  obtain ⟨mail,led,found,inc,small,id⟩ := belongs
  obtain ⟨led',found',le⟩ := grows t.ord led found
  exact ⟨mail,led',found',inc,by omega,id⟩

/-! ## Live and dead actors -/

/-- The current id of an actor. -/
def idOf (ord : Nat) (led : ActorLedger) : ActorId := sim_actor_id ord led.incarnation

structure Alive (config : MailboxConfig) (registry : ActorRegistry) (tasks : List SimTask) (ord : Nat)
    (led : ActorLedger) : Prop where
  entry : ∃ e, registry.by_id.lookup (idOf ord led) = some e ∧ Viable e.state ∧
    e.name = some (actor_name ord led.incarnation)
  mailbox : ∃ mb, registry.mailboxes.lookup (idOf ord led) = some mb ∧ Sound config mb ∧
    queued mb = load (idOf ord led) tasks ∧ led.delivered = led.consumed + led.dropped + queued mb

/-- After a crash; once it is settled, nothing delivered is unaccounted for. -/
structure Fallen (registry : ActorRegistry) (settled : Bool) (ord : Nat) (led : ActorLedger) : Prop where
  alive : led.alive = true
  entry : ∃ e, registry.by_id.lookup (idOf ord led) = some e ∧ e.name = some (actor_name ord led.incarnation)
  mailbox : ∃ mb, registry.mailboxes.lookup (idOf ord led) = some mb ∧ mb.len = 0
  bounded : led.consumed + led.dropped ≤ led.delivered
  closed : settled = true → led.delivered = led.consumed + led.dropped

/-- Everything hangs together; `fallen` is the actor whose crash is being
    handled, with whether it is settled. -/
structure Consistent (config : MailboxConfig) (registry : ActorRegistry) (actors : List ActorId)
    (ordinals : Dict (BitVec 128) Nat) (ledger : List ActorLedger) (tasks : List SimTask) (fallen : Option (Nat × Bool)) :
    Prop where
  sameConfig : registry.mailbox_config = config
  actors : ∀ ord : Nat, actors[ord]? = ledger[ord]?.map (idOf ord)
  alive : ∀ ord led, ledger[ord]? = some led → led.alive = true → fallen.map (·.1) ≠ some ord →
    Alive config registry tasks ord led
  dead : ∀ ord led, ledger[ord]? = some led → led.alive = false →
    registry.by_id.lookup (idOf ord led) = none ∧ led.delivered = led.consumed + led.dropped
  fallen : ∀ ord settled, fallen = some (ord,settled) → ∃ led, ledger[ord]? = some led ∧ Fallen registry settled ord led
  ordinals : ∀ ord led, ledger[ord]? = some led → led.alive = true →
    ordinals.lookup (idOf ord led).uuid = some ord
  ids : ∀ id e, registry.by_id.lookup id = some e → ∃ ord led, ledger[ord]? = some led ∧ led.alive = true ∧
    id = idOf ord led
  names : ∀ name id, registry.by_name.lookup name = some id → ∃ ord led, ledger[ord]? = some led ∧ led.alive = true ∧
    name = actor_name ord led.incarnation
  tasks : ∀ t ∈ tasks, Belongs ledger t

theorem consistent_new (config : MailboxConfig) :
    Consistent config (.with_mailbox_config config) [] ∅ [] [] none where
  sameConfig := rfl
  actors := fun _ => rfl
  alive := fun ord led found => by cases found
  dead := fun ord led found => by cases found
  fallen := fun _ _ same => by cases same
  ordinals := fun ord led found => by cases found
  ids := fun id e found => by cases found
  names := fun name id found => by cases found
  tasks := fun t member => by cases member

/-! ## One actor changes -/

theorem modified_led {ledger : List ActorLedger} {ord other : Nat} {f : ActorLedger → ActorLedger} {led' : ActorLedger}
    (found : (ledger.modify ord f)[other]? = some led') :
    ∃ led, ledger[other]? = some led ∧ led' = if other = ord then f led else led := by
  rw [List.getElem?_modify] at found
  cases old : ledger[other]? with
  | none => simp [old] at found
  | some led =>
    refine ⟨led,rfl,?_⟩
    rw [old] at found
    by_cases same : other = ord
    · subst same
      simpa [eq_comm] using found
    · simpa [same,Ne.symm same,eq_comm] using found

section
variable {config : MailboxConfig} {registry registry' : ActorRegistry} {actors : List ActorId}
  {ordinals : Dict (BitVec 128) Nat} {ledger : List ActorLedger} {tasks tasks' : List SimTask}
  {fallen fallen' : Option (Nat × Bool)}

/-- Live actors have different ids. -/
theorem Distinct.ne (distinct : Distinct ledger) {ord other : Nat} {led led' : ActorLedger}
    (found : ledger[ord]? = some led) (found' : ledger[other]? = some led') (apart : other ≠ ord) :
    idOf other led' ≠ idOf ord led :=
  fun same => apart (distinct other ord led' led found' found _ _ (Nat.le_refl _) (Nat.le_refl _) same).1

theorem Alive.congr {ord : Nat} {led : ActorLedger} (alive : Alive config registry tasks ord led)
    (entry : registry'.by_id.lookup (idOf ord led) = registry.by_id.lookup (idOf ord led))
    (box : registry'.mailboxes.lookup (idOf ord led) = registry.mailboxes.lookup (idOf ord led))
    (same : load (idOf ord led) tasks' = load (idOf ord led) tasks) : Alive config registry' tasks' ord led :=
  ⟨by rw [entry]; exact alive.entry,by rw [box,same]; exact alive.mailbox⟩

theorem Consistent.perm (world : Consistent config registry actors ordinals ledger tasks fallen)
    (same : tasks.Perm tasks') : Consistent config registry actors ordinals ledger tasks' fallen :=
  { world with
    alive := fun ord led found lives stands =>
      (world.alive ord led found lives stands).congr rfl rfl (load_perm _ same.symm)
    tasks := fun t member => world.tasks t (same.mem_iff.mpr member) }

/-- A task for nobody disappears. -/
theorem Consistent.dismiss {t : SimTask} (world : Consistent config registry actors ordinals ledger (t :: tasks) none)
    (nobody : registry.by_id.lookup t.task.actor_id = none) :
    Consistent config registry actors ordinals ledger tasks none := by
  refine { world with alive := ?_, tasks := fun t member => world.tasks t (List.mem_cons_of_mem _ member) }
  intro ord led found lives stands
  have alive := world.alive ord led found lives stands
  refine alive.congr rfl rfl ?_
  obtain ⟨e,entry,-⟩ := alive.entry
  have apart : t.task.actor_id ≠ idOf ord led := by
    intro same
    rw [same,entry] at nobody
    cases nobody
  rw [load_cons,if_neg apart,Nat.zero_add]

/-- A registered task belongs to the current incarnation of its actor. -/
theorem Consistent.current (world : Consistent config registry actors ordinals ledger tasks none)
    (distinct : Distinct ledger) {t : SimTask} (queued : t ∈ tasks) {e : ActorEntry}
    (entry : registry.by_id.lookup t.task.actor_id = some e) :
    ∃ led, ledger[t.ord]? = some led ∧ led.alive = true ∧ t.task.actor_id = idOf t.ord led ∧
      Alive config registry tasks t.ord led := by
  obtain ⟨ord,led,found,lives,same⟩ := world.ids _ _ entry
  obtain ⟨-,led',found',inc,small,id⟩ := world.tasks t queued
  rw [id] at same
  obtain ⟨rfl,-⟩ := distinct t.ord ord led' led found' found inc led.incarnation small (Nat.le_refl _) same
  exact ⟨led,found,lives,id.trans same,world.alive _ led found lives (by simp)⟩

/-- Actor `ord` lives on with new figures; the entries and mailboxes of the others
    and the work queued for them stay. -/
theorem Consistent.touch (world : Consistent config registry actors ordinals ledger tasks fallen)
    (distinct : Distinct ledger) {ord : Nat} {led : ActorLedger} (found : ledger[ord]? = some led)
    (lives : led.alive = true) (f : ActorLedger → ActorLedger)
    (keeps : ∀ led, (f led).incarnation = led.incarnation ∧ (f led).alive = led.alive)
    (sameConfig : registry'.mailbox_config = registry.mailbox_config) (names : registry'.by_name = registry.by_name)
    (others : ∀ id, id ≠ idOf ord led → registry'.by_id.lookup id = registry.by_id.lookup id ∧
      registry'.mailboxes.lookup id = registry.mailboxes.lookup id ∧ load id tasks' = load id tasks)
    (belong : ∀ t ∈ tasks', Belongs ledger t)
    (before : ∀ other settled, fallen = some (other,settled) → other = ord)
    (after : ∀ other settled, fallen' = some (other,settled) → other = ord ∧ Fallen registry' settled ord (f led))
    (stands : fallen' = none → Alive config registry' tasks' ord (f led)) :
    Consistent config registry' actors ordinals (ledger.modify ord f) tasks' fallen' := by
  have same : ∀ other led, idOf other (f led) = idOf other led := fun other led => by
    rw [idOf,(keeps led).1]; rfl
  have inside : (ledger.modify ord f)[ord]? = some (f led) := by simp [found]
  have lifted : ∀ other led', ledger[other]? = some led' →
      ∃ led'', (ledger.modify ord f)[other]? = some led'' ∧ led''.incarnation = led'.incarnation ∧
        led''.alive = led'.alive ∧ idOf other led'' = idOf other led' := by
    intro other led' found'
    rw [List.getElem?_modify,found']
    by_cases equal : ord = other
    · exact ⟨f led',by simp [equal],(keeps led').1,(keeps led').2,same other led'⟩
    · exact ⟨led',by simp [equal],rfl,rfl,rfl⟩
  constructor
  · exact sameConfig.trans world.sameConfig
  · intro other
    rw [world.actors,List.getElem?_modify]
    cases ledger[other]? with
    | none => rfl
    | some led =>
      by_cases equal : ord = other <;> simp [equal,same]
  · intro other led' at_ lives' up
    obtain ⟨old,at',rfl⟩ := modified_led at_
    by_cases equal : other = ord
    · subst equal
      rw [found] at at'
      cases at'
      rw [if_pos rfl]
      refine stands ?_
      cases state : fallen' with
      | none => rfl
      | some pair =>
        obtain ⟨rfl,-⟩ := after pair.1 pair.2 state
        rw [state] at up
        exact absurd rfl up
    · rw [if_neg equal] at lives' ⊢
      have stood : fallen.map (·.1) ≠ some other := by
        cases state : fallen with
        | none => simp
        | some pair =>
          have := before pair.1 pair.2 state
          simpa [this] using Ne.symm equal
      obtain ⟨entry,box,sameLoad⟩ := others _ (distinct.ne found at' equal)
      exact (world.alive other old at' lives' stood).congr entry box sameLoad
  · intro other led' at_ dead
    obtain ⟨old,at',rfl⟩ := modified_led at_
    by_cases equal : other = ord
    · subst equal
      rw [found] at at'
      cases at'
      rw [if_pos rfl,(keeps led).2,lives] at dead
      cases dead
    · rw [if_neg equal] at dead ⊢
      rw [(others _ (distinct.ne found at' equal)).1]
      exact world.dead other old at' dead
  · intro other settled state
    obtain ⟨rfl,down⟩ := after other settled state
    exact ⟨f led,inside,down⟩
  · intro other led' at_ lives'
    obtain ⟨old,at',rfl⟩ := modified_led at_
    by_cases equal : other = ord
    · rw [if_pos equal,same] at *
      rw [(keeps old).2] at lives'
      exact world.ordinals other old at' lives'
    · rw [if_neg equal] at *
      exact world.ordinals other old at' lives'
  · intro id e entry
    have old : ∃ e, registry.by_id.lookup id = some e := by
      by_cases equal : id = idOf ord led
      · subst equal
        by_cases up : fallen = none
        · obtain ⟨e,entry,-⟩ := (world.alive ord led found lives (by simp [up])).entry
          exact ⟨e,entry⟩
        · obtain ⟨pair,state⟩ := Option.ne_none_iff_exists'.mp up
          obtain ⟨led',at',down⟩ := world.fallen pair.1 pair.2 state
          rw [before pair.1 pair.2 state,found] at at'
          cases at'
          rw [before pair.1 pair.2 state] at down
          obtain ⟨e,entry,-⟩ := down.entry
          exact ⟨e,entry⟩
      · exact ⟨e,by rw [← (others id equal).1]; exact entry⟩
    obtain ⟨e,entry⟩ := old
    obtain ⟨other,led',at',lives',equal⟩ := world.ids id e entry
    obtain ⟨led'',at'',-,alive'',id''⟩ := lifted other led' at'
    exact ⟨other,led'',at'',alive''.trans lives',equal.trans id''.symm⟩
  · intro name id listed
    rw [names] at listed
    obtain ⟨other,led',at',lives',equal⟩ := world.names name id listed
    obtain ⟨led'',at'',inc'',alive'',-⟩ := lifted other led' at'
    exact ⟨other,led'',at'',alive''.trans lives',by rw [equal,inc'']⟩
  · intro t member
    exact (belong t member).mono (grows_modify ledger ord f (fun led => by rw [(keeps led).1]))

/-- The books of an actor, alive or dead, are no part of the population. -/
theorem Consistent.rebooked (world : Consistent config registry actors ordinals ledger tasks fallen) (ord count : Nat) :
    Consistent config registry actors ordinals (ledger.modify ord (fun led => { led with queued := count })) tasks
      fallen := by
  have old : ∀ {other : Nat} {led' : ActorLedger},
      (ledger.modify ord (fun led => { led with queued := count }))[other]? = some led' →
      ∃ led, ledger[other]? = some led ∧ led' = { led with queued := led'.queued } := by
    intro other led' found
    obtain ⟨led,at_,rfl⟩ := modified_led found
    refine ⟨led,at_,?_⟩
    split <;> rfl
  have new : ∀ {other : Nat} {led : ActorLedger}, ledger[other]? = some led →
      ∃ queued, (ledger.modify ord (fun led => { led with queued := count }))[other]? = some { led with queued } := by
    intro other led found
    rw [List.getElem?_modify,found]
    by_cases same : ord = other
    · exact ⟨count,by simp [same]⟩
    · exact ⟨led.queued,by simp [same]⟩
  constructor
  · exact world.sameConfig
  · intro other
    rw [world.actors,List.getElem?_modify]
    cases ledger[other]? with
    | none => rfl
    | some led => by_cases equal : ord = other <;> simp [equal,idOf]
  · intro other led' found lives stands
    obtain ⟨led,at_,same⟩ := old found
    rw [same] at lives ⊢
    have alive := world.alive other led at_ lives stands
    exact ⟨alive.entry,alive.mailbox⟩
  · intro other led' found dead
    obtain ⟨led,at_,same⟩ := old found
    rw [same] at dead ⊢
    exact world.dead other led at_ dead
  · intro other settled state
    obtain ⟨led,at_,down⟩ := world.fallen other settled state
    obtain ⟨queued,at'⟩ := new at_
    exact ⟨_,at',down.alive,down.entry,down.mailbox,down.bounded,down.closed⟩
  · intro other led' found lives
    obtain ⟨led,at_,same⟩ := old found
    rw [same] at lives ⊢
    exact world.ordinals other led at_ lives
  · intro id e entry
    obtain ⟨other,led,at_,lives,same⟩ := world.ids id e entry
    obtain ⟨queued,at'⟩ := new at_
    exact ⟨other,_,at',lives,same⟩
  · intro name id listed
    obtain ⟨other,led,at_,lives,same⟩ := world.names name id listed
    obtain ⟨queued,at'⟩ := new at_
    exact ⟨other,_,at',lives,same⟩
  · exact fun t member => (world.tasks t member).mono (grows_modify _ _ _ (fun _ => Nat.le_refl _))

/-! ## Deliveries, services and crashes -/

/-- A delivery: the mailbox has taken the messages of the new task. -/
theorem Consistent.deliver (world : Consistent config registry actors ordinals ledger tasks none)
    (distinct : Distinct ledger) {ord : Nat} {led : ActorLedger} (found : ledger[ord]? = some led)
    (lives : led.alive = true) {mb mb' : Mailbox} (box : registry.mailboxes.lookup (idOf ord led) = some mb)
    (sound : Sound config mb') {t : SimTask} (target : t.ord = ord) (addressed : t.task.actor_id = idOf ord led)
    (mail : Mail t.mids t.task.messages) (grown : queued mb' = queued mb + t.task.messages.length) (more : Nat) :
    Consistent config (registry.on_mailbox (idOf ord led) (fun _ => mb')) actors ordinals
      (ledger.modify ord (fun led =>
        { led with delivered := led.delivered + t.task.messages.length, queued := led.queued + more }))
      (t :: tasks) none := by
  have alive := world.alive ord led found lives (by simp)
  refine world.touch distinct found lives
    (fun led => { led with delivered := led.delivered + t.task.messages.length, queued := led.queued + more })
    (fun _ => ⟨rfl,rfl⟩) rfl rfl ?_ ?_ (by simp) (by simp) (fun _ => ?_)
  · intro id apart
    refine ⟨rfl,?_,?_⟩
    · simp [ActorRegistry.on_mailbox,apart]
    · rw [load_cons,addressed,if_neg (Ne.symm apart),Nat.zero_add]
  · intro other member
    rcases List.mem_cons.mp member with rfl | old
    · exact ⟨mail,led,by rw [target]; exact found,led.incarnation,Nat.le_refl _,by rw [target]; exact addressed⟩
    · exact world.tasks other old
  · obtain ⟨mb₀,box₀,-,size,figures⟩ := alive.mailbox
    rw [box] at box₀
    cases box₀
    refine ⟨alive.entry,mb',?_,sound,?_,?_⟩
    · show (registry.mailboxes.modify (idOf ord led) _).lookup (idOf ord led) = _
      simp [box]
    · show queued mb' = load (idOf ord led) (t :: tasks)
      rw [load_cons,if_pos addressed]
      omega
    · show led.delivered + t.task.messages.length = led.consumed + led.dropped + queued mb'
      omega

/-- The chosen task is served: its messages leave the mailbox. -/
theorem Consistent.serve {t : SimTask} (world : Consistent config registry actors ordinals ledger (t :: tasks) none)
    (distinct : Distinct ledger) {led : ActorLedger} (found : ledger[t.ord]? = some led) (lives : led.alive = true)
    (addressed : t.task.actor_id = idOf t.ord led)
    (served : Served config t.task.actor_id t.task.messages.length registry registry') :
    Consistent config registry' actors ordinals
      (ledger.modify t.ord (fun led => { led with consumed := led.consumed + t.task.messages.length })) tasks none := by
  have alive := world.alive t.ord led found lives (by simp)
  rw [addressed] at served
  refine world.touch distinct found lives
    (fun led => { led with consumed := led.consumed + t.task.messages.length })
    (fun _ => ⟨rfl,rfl⟩) served.sameConfig served.names ?_ ?_ (by simp) (by simp) (fun _ => ?_)
  · intro id apart
    refine ⟨(served.others id apart).1,(served.others id apart).2,?_⟩
    rw [load_cons,addressed,if_neg (Ne.symm apart),Nat.zero_add]
  · exact fun other member => world.tasks other (List.mem_cons_of_mem _ member)
  · obtain ⟨e,entry,viable,name⟩ := alive.entry
    obtain ⟨e',entry',viable',name'⟩ := served.entry e entry viable
    obtain ⟨mb,box,sound,size,figures⟩ := alive.mailbox
    rw [load_cons,if_pos addressed] at size
    obtain ⟨mb',box',sound',size'⟩ := served.mailbox mb box sound (by omega)
    refine ⟨⟨e',entry',viable',name'.trans name⟩,mb',box',sound',?_,?_⟩
    · show queued mb' = load (idOf t.ord led) tasks
      omega
    · show led.delivered = led.consumed + t.task.messages.length + led.dropped + queued mb'
      omega

/-- The chosen task crashes: its actor is marked as failed and its mailbox is
    emptied. -/
theorem Consistent.crash (fits : config.capacity < 2 ^ 64) {t : SimTask}
    (world : Consistent config registry actors ordinals ledger (t :: tasks) none)
    (distinct : Distinct ledger) {led : ActorLedger} (found : ledger[t.ord]? = some led) (lives : led.alive = true)
    (addressed : t.task.actor_id = idOf t.ord led) :
    Consistent config ((registry.set_state t.task.actor_id .Failed).1.on_mailbox t.task.actor_id Mailbox.clear) actors
      ordinals ledger tasks (some (t.ord,false)) := by
  have alive := world.alive t.ord led found lives (by simp)
  obtain ⟨e,entry,viable,name⟩ := alive.entry
  obtain ⟨mb,box,sound,size,figures⟩ := alive.mailbox
  have set : (registry.set_state (idOf t.ord led) .Failed).1 =
      { registry with by_id := registry.by_id.modify (idOf t.ord led) (fun e => { e with state := .Failed }) } := by
    simp only [ActorRegistry.set_state,entry]
  rw [addressed,set]
  have same : ledger.modify t.ord id = ledger := List.modify_id ..
  rw [← same]
  refine world.touch distinct found lives id (fun _ => ⟨rfl,rfl⟩) rfl rfl ?_ ?_ (by simp) ?_ (by simp)
  · intro id apart
    refine ⟨?_,?_,?_⟩
    · simp [ActorRegistry.on_mailbox,apart]
    · simp [ActorRegistry.on_mailbox,apart]
    · rw [load_cons,addressed,if_neg (Ne.symm apart),Nat.zero_add]
  · exact fun other member => world.tasks other (List.mem_cons_of_mem _ member)
  · rintro other settled state
    cases state
    obtain ⟨soundClear,empty⟩ := clear_sound fits sound
    refine ⟨rfl,lives,⟨{ e with state := .Failed },?_,name⟩,⟨mb.clear,?_,?_⟩,?_,fun no => by cases no⟩
    · simp [ActorRegistry.on_mailbox,entry]
    · simp [ActorRegistry.on_mailbox,box]
    · show mb.clear.size = 0
      rw [soundClear.size,← contents_length,empty]
      rfl
    · show led.consumed + led.dropped ≤ led.delivered
      omega

/-- The ledger of a fallen actor is settled. -/
theorem Consistent.settle {ord : Nat} (world : Consistent config registry actors ordinals ledger tasks (some (ord,false)))
    (distinct : Distinct ledger) {led : ActorLedger} (found : ledger[ord]? = some led) :
    Consistent config registry actors ordinals (ledger.modify ord (fun led' =>
      { led' with dropped := led'.dropped + (led.delivered - led.consumed - led.dropped - 0) })) tasks
      (some (ord,true)) := by
  obtain ⟨led',found',down⟩ := world.fallen ord false rfl
  rw [found] at found'
  cases found'
  refine world.touch distinct found down.alive
    (fun led' => { led' with dropped := led'.dropped + (led.delivered - led.consumed - led.dropped - 0) })
    (fun _ => ⟨rfl,rfl⟩) rfl rfl (fun _ _ => ⟨rfl,rfl,rfl⟩) world.tasks ?_ ?_ (by simp)
  · intro other settled state
    cases state
    rfl
  · intro other settled state
    cases state
    have bounded := down.bounded
    refine ⟨rfl,down.alive,down.entry,down.mailbox,?_,fun _ => ?_⟩
    · show led.consumed + (led.dropped + (led.delivered - led.consumed - led.dropped - 0)) ≤ led.delivered
      omega
    · show led.delivered = led.consumed + (led.dropped + (led.delivered - led.consumed - led.dropped - 0))
      omega

/-! ## Births and deaths -/

theorem uuid_inj {id id' : ActorId} : id.uuid = id'.uuid ↔ id = id' := by
  cases id
  cases id'
  simp

theorem register_fresh {id : ActorId} {name : String} (unregistered : registry.by_id.lookup id = none)
    (unnamed : registry.by_name.lookup name = none) :
    registry.register_named id (some name) =
      ({ registry with
          by_id := registry.by_id.insert id { name := some name }
          by_name := registry.by_name.insert name id
          mailboxes := registry.mailboxes.insert id (.new id registry.mailbox_config) },
        .ok (.new id registry.mailbox_config)) := by
  simp [ActorRegistry.register_named,unregistered,unnamed]

/-- A registered incarnation that has just been born. -/
theorem alive_newborn {registry : ActorRegistry} {ord : Nat} {led : ActorLedger} {mb : Mailbox}
    (entry : registry.by_id.lookup (idOf ord led) = some { name := some (actor_name ord led.incarnation) })
    (box : registry.mailboxes.lookup (idOf ord led) = some mb) (fresh : mb = .new (idOf ord led) config)
    (idle : load (idOf ord led) tasks = 0) (figures : led.delivered = led.consumed + led.dropped) :
    Alive config registry tasks ord led := by
  subst fresh
  exact ⟨⟨_,entry,trivial,rfl⟩,_,box,sound_new _ _,idle.symm,figures⟩

theorem Consistent.lengths (world : Consistent config registry actors ordinals ledger tasks fallen) :
    actors.length = ledger.length := by
  have short := world.actors ledger.length
  have long := world.actors actors.length
  rw [List.getElem?_eq_none (Nat.le_refl _),Option.map_none,List.getElem?_eq_none_iff] at short
  rw [List.getElem?_eq_none (Nat.le_refl _),eq_comm,Option.map_eq_none_iff,List.getElem?_eq_none_iff] at long
  omega

/-- A new actor registers under a free id and a free name. -/
theorem Consistent.spawn_free (world : Consistent config registry actors ordinals ledger tasks none)
    (small : ledger.length < 2 ^ 64) :
    registry.by_id.lookup (sim_actor_id ledger.length 0) = none ∧
      registry.by_name.lookup (actor_name ledger.length 0) = none := by
  constructor
  · cases taken : registry.by_id.lookup (sim_actor_id ledger.length 0) with
    | none => rfl
    | some e =>
      obtain ⟨ord,led,found,-,same⟩ := world.ids _ e taken
      obtain ⟨inside,-⟩ := List.getElem?_eq_some_iff.mp found
      have := ord_of_id small (by omega) same
      omega
  · cases taken : registry.by_name.lookup (actor_name ledger.length 0) with
    | none => rfl
    | some id =>
      obtain ⟨ord,led,found,-,same⟩ := world.names _ id taken
      obtain ⟨inside,-⟩ := List.getElem?_eq_some_iff.mp found
      have := (actor_name_inj same).1
      omega

theorem appended_led {led led' : ActorLedger} {ord : Nat} (found : (ledger ++ [led])[ord]? = some led') :
    ledger[ord]? = some led' ∧ ord < ledger.length ∨ ord = ledger.length ∧ led' = led := by
  obtain ⟨inside,value⟩ := List.getElem?_eq_some_iff.mp found
  rw [List.length_append,List.length_singleton] at inside
  by_cases old : ord < ledger.length
  · rw [List.getElem?_append_left old] at found
    exact .inl ⟨found,old⟩
  · obtain rfl : ord = ledger.length := by omega
    simp at found
    exact .inr ⟨rfl,found.symm⟩

/-- A new actor joins. -/
theorem Consistent.spawn (world : Consistent config registry actors ordinals ledger tasks none)
    (small : ledger.length < 2 ^ 64) :
    Consistent config (registry.register_named (sim_actor_id ledger.length 0) (some (actor_name ledger.length 0))).1
      (actors ++ [sim_actor_id ledger.length 0])
      (ordinals.insert (sim_actor_id ledger.length 0).uuid ledger.length)
      (ledger ++ [{ incarnation := 0, alive := true }]) tasks none := by
  obtain ⟨unregistered,unnamed⟩ := world.spawn_free small
  rw [register_fresh unregistered unnamed]
  have apart : ∀ (ord : Nat) led, ledger[ord]? = some led → idOf ord led ≠ sim_actor_id ledger.length 0 := by
    intro ord led found same
    obtain ⟨inside,-⟩ := List.getElem?_eq_some_iff.mp found
    have := ord_of_id (by omega) small same
    omega
  have kept : ∀ (ord : Nat) led, ledger[ord]? = some led → (ledger ++ [{ incarnation := 0, alive := true }])[ord]? = some led := by
    intro ord led found
    obtain ⟨inside,-⟩ := List.getElem?_eq_some_iff.mp found
    rw [List.getElem?_append_left inside,found]
  have idle : load (sim_actor_id ledger.length 0) tasks = 0 := by
    refine load_eq_zero (fun t member same => ?_)
    obtain ⟨-,led,found,inc,-,id⟩ := world.tasks t member
    obtain ⟨inside,-⟩ := List.getElem?_eq_some_iff.mp found
    have := ord_of_id (by omega) small (id.symm.trans same)
    omega
  have size := world.lengths
  constructor
  · exact world.sameConfig
  · intro ord
    by_cases old : ord < ledger.length
    · rw [List.getElem?_append_left (by omega),List.getElem?_append_left old]
      exact world.actors ord
    · by_cases new : ord = ledger.length
      · subst new
        simp [← size,idOf]
      · rw [List.getElem?_eq_none (by simp; omega),List.getElem?_eq_none (by simp; omega)]
        rfl
  · intro ord led found lives up
    rcases appended_led found with ⟨old,-⟩ | ⟨rfl,rfl⟩
    · refine (world.alive ord led old lives up).congr ?_ ?_ rfl
      · simp [apart ord led old]
      · simp [apart ord led old]
    · exact alive_newborn (by simp [idOf]) (by simp [idOf]; rfl) (by rw [world.sameConfig]; rfl) idle rfl
  · intro ord led found dead
    rcases appended_led found with ⟨old,-⟩ | ⟨rfl,rfl⟩
    · simp only [Dict.lookup_insert_ite,apart ord led old,if_false]
      exact world.dead ord led old dead
    · cases dead
  · intro ord settled state
    cases state
  · intro ord led found lives
    rcases appended_led found with ⟨old,-⟩ | ⟨rfl,rfl⟩
    · rw [Dict.lookup_insert_ite,if_neg (fun same => apart ord led old (uuid_inj.mp same))]
      exact world.ordinals ord led old lives
    · simp [idOf]
  · intro id e entry
    simp only [Dict.lookup_insert_ite] at entry
    split at entry
    · next new => exact ⟨ledger.length,{ incarnation := 0, alive := true },by simp,rfl,new⟩
    · obtain ⟨ord,led,found,lives,same⟩ := world.ids id e entry
      exact ⟨ord,led,kept ord led found,lives,same⟩
  · intro name id listed
    simp only [Dict.lookup_insert_ite] at listed
    split at listed
    · next new => exact ⟨ledger.length,{ incarnation := 0, alive := true },by simp,rfl,new⟩
    · obtain ⟨ord,led,found,lives,same⟩ := world.names name id listed
      exact ⟨ord,led,kept ord led found,lives,same⟩
  · intro t member
    exact (world.tasks t member).mono (fun ord led found => ⟨led,kept ord led found,Nat.le_refl _⟩)

/-- The registry without one incarnation. -/
structure Gone (id : ActorId) (name : String) (registry registry' : ActorRegistry) : Prop where
  sameConfig : registry'.mailbox_config = registry.mailbox_config
  ids : ∀ other, registry'.by_id.lookup other = if other = id then none else registry.by_id.lookup other
  names : ∀ other, registry'.by_name.lookup other = if other = name then none else registry.by_name.lookup other
  boxes : ∀ other, other ≠ id → registry'.mailboxes.lookup other = registry.mailboxes.lookup other

theorem unregister_gone {id : ActorId} {e : ActorEntry} {name : String} (entry : registry.by_id.lookup id = some e)
    (named : e.name = some name) : Gone id name registry (registry.unregister id).1 := by
  simp only [ActorRegistry.unregister,entry,named]
  exact ⟨rfl,Dict.lookup_erase_ite _ _,Dict.lookup_erase_ite _ _,fun _ _ => rfl⟩

/-- Emptying the mailbox of the incarnation first makes no difference. -/
theorem unregister_cleared_gone {id : ActorId} {e : ActorEntry} {name : String}
    (entry : registry.by_id.lookup id = some e) (named : e.name = some name) :
    Gone id name registry ((registry.on_mailbox id Mailbox.clear).unregister id).1 := by
  have gone : Gone id name (registry.on_mailbox id Mailbox.clear) _ := unregister_gone entry named
  refine ⟨gone.sameConfig,gone.ids,gone.names,fun other apart => ?_⟩
  rw [gone.boxes other apart]
  simp [ActorRegistry.on_mailbox,apart]

/-- Everything about the actors other than the fallen one that its departure
    leaves. -/
theorem Consistent.others_alive {ord : Nat} {settled : Bool}
    (world : Consistent config registry actors ordinals ledger tasks (some (ord,settled))) (distinct : Distinct ledger)
    {led : ActorLedger} (found : ledger[ord]? = some led)
    (gone : Gone (idOf ord led) (actor_name ord led.incarnation) registry registry') {other : Nat} {led' : ActorLedger}
    (apart : other ≠ ord) (found' : ledger[other]? = some led') (lives : led'.alive = true) :
    Alive config registry' tasks other led' := by
  have differs := distinct.ne found found' apart
  refine (world.alive other led' found' lives (by simpa using Ne.symm apart)).congr ?_ (gone.boxes _ differs) rfl
  rw [gone.ids,if_neg differs]

/-- An entry the departure leaves belongs to another actor. -/
theorem Consistent.others_ids {ord : Nat} {settled : Bool}
    (world : Consistent config registry actors ordinals ledger tasks (some (ord,settled))) {led : ActorLedger}
    (found : ledger[ord]? = some led) (gone : Gone (idOf ord led) (actor_name ord led.incarnation) registry registry')
    {id : ActorId} {e : ActorEntry} (entry : registry'.by_id.lookup id = some e) :
    ∃ other led', other ≠ ord ∧ ledger[other]? = some led' ∧ led'.alive = true ∧ id = idOf other led' := by
  rw [gone.ids] at entry
  split at entry
  · cases entry
  · next differs =>
    obtain ⟨other,led',found',lives,same⟩ := world.ids id e entry
    refine ⟨other,led',?_,found',lives,same⟩
    rintro rfl
    rw [found] at found'
    cases found'
    exact differs same

theorem Consistent.others_names {ord : Nat} {settled : Bool}
    (world : Consistent config registry actors ordinals ledger tasks (some (ord,settled))) {led : ActorLedger}
    (found : ledger[ord]? = some led) (gone : Gone (idOf ord led) (actor_name ord led.incarnation) registry registry')
    {name : String} {id : ActorId} (listed : registry'.by_name.lookup name = some id) :
    ∃ other led', other ≠ ord ∧ ledger[other]? = some led' ∧ led'.alive = true ∧
      name = actor_name other led'.incarnation := by
  rw [gone.names] at listed
  split at listed
  · cases listed
  · next differs =>
    obtain ⟨other,led',found',lives,same⟩ := world.names name id listed
    refine ⟨other,led',?_,found',lives,same⟩
    rintro rfl
    rw [found] at found'
    cases found'
    exact differs same

theorem modified_other {ord other : Nat} {led' : ActorLedger} (f : ActorLedger → ActorLedger) (apart : other ≠ ord)
    (found : ledger[other]? = some led') : (ledger.modify ord f)[other]? = some led' := by
  simp [Ne.symm apart,found]

/-- The fallen actor dies for good. -/
theorem Consistent.bury {ord : Nat} (world : Consistent config registry actors ordinals ledger tasks (some (ord,true)))
    (distinct : Distinct ledger) {led : ActorLedger} (found : ledger[ord]? = some led)
    (gone : Gone (idOf ord led) (actor_name ord led.incarnation) registry registry') :
    Consistent config registry' actors (ordinals.erase (idOf ord led).uuid)
      (ledger.modify ord (fun led => { led with dropped := led.dropped + 0, alive := false })) tasks none := by
  obtain ⟨led₀,found₀,down⟩ := world.fallen ord true rfl
  rw [found] at found₀
  cases found₀
  have lift : ∀ {other led'}, other ≠ ord → ledger[other]? = some led' →
      (ledger.modify ord (fun led => { led with dropped := led.dropped + 0, alive := false }))[other]? = some led' :=
    fun apart found' => modified_other _ apart found'
  constructor
  · exact gone.sameConfig.trans world.sameConfig
  · intro other
    rw [world.actors,List.getElem?_modify]
    cases ledger[other]? with
    | none => rfl
    | some led => by_cases equal : ord = other <;> simp [equal,idOf]
  · intro other led' at_ lives _
    obtain ⟨old,at',rfl⟩ := modified_led at_
    by_cases equal : other = ord
    · rw [if_pos equal] at lives
      cases lives
    · rw [if_neg equal] at lives ⊢
      exact world.others_alive distinct found gone equal at' lives
  · intro other led' at_ dead
    obtain ⟨old,at',rfl⟩ := modified_led at_
    by_cases equal : other = ord
    · subst equal
      rw [found] at at'
      cases at'
      rw [if_pos rfl]
      refine ⟨?_,down.closed rfl⟩
      rw [gone.ids]
      exact if_pos rfl
    · rw [if_neg equal] at dead ⊢
      obtain ⟨absent,figures⟩ := world.dead other old at' dead
      refine ⟨?_,figures⟩
      rw [gone.ids,absent]
      exact ite_self _
  · intro other settled state
    cases state
  · intro other led' at_ lives
    obtain ⟨old,at',rfl⟩ := modified_led at_
    by_cases equal : other = ord
    · rw [if_pos equal] at lives
      cases lives
    · rw [if_neg equal] at lives ⊢
      rw [Dict.lookup_erase_ite,if_neg (fun same => distinct.ne found at' equal (uuid_inj.mp same))]
      exact world.ordinals other old at' lives
  · intro id e entry
    obtain ⟨other,led',apart,found',lives,same⟩ := world.others_ids found gone entry
    exact ⟨other,led',lift apart found',lives,same⟩
  · intro name id listed
    obtain ⟨other,led',apart,found',lives,same⟩ := world.others_names found gone listed
    exact ⟨other,led',lift apart found',lives,same⟩
  · exact fun t member => (world.tasks t member).mono (grows_modify _ _ _ (fun _ => Nat.le_refl _))

/-- The next incarnation of an actor in the ledger. -/
def reborn (led : ActorLedger) : ActorLedger := { led with incarnation := led.incarnation + 1 }

/-- The next incarnation of the fallen actor finds its id and its name free. -/
theorem Consistent.respawn_free {ord : Nat}
    (world : Consistent config registry actors ordinals ledger tasks (some (ord,true))) {led : ActorLedger}
    (found : ledger[ord]? = some led) (distinct : Distinct (ledger.modify ord reborn))
    (gone : Gone (idOf ord led) (actor_name ord led.incarnation) registry registry') :
    registry'.by_id.lookup (sim_actor_id ord (led.incarnation + 1)) = none ∧
      registry'.by_name.lookup (actor_name ord (led.incarnation + 1)) = none := by
  have inside : (ledger.modify ord reborn)[ord]? = some (reborn led) := by simp [found]
  constructor
  · cases taken : registry'.by_id.lookup (sim_actor_id ord (led.incarnation + 1)) with
    | none => rfl
    | some e =>
      obtain ⟨other,led',apart,found',-,same⟩ := world.others_ids found gone taken
      exact absurd (distinct ord other _ led' inside (modified_other _ apart found') (led.incarnation + 1) _
        (Nat.le_refl _) (Nat.le_refl _) same).1 (Ne.symm apart)
  · cases taken : registry'.by_name.lookup (actor_name ord (led.incarnation + 1)) with
    | none => rfl
    | some id =>
      obtain ⟨other,led',apart,-,-,same⟩ := world.others_names found gone taken
      exact absurd (actor_name_inj same).1 (Ne.symm apart)

/-- The fallen actor starts over as its next incarnation. -/
theorem Consistent.respawn {ord : Nat} (world : Consistent config registry actors ordinals ledger tasks (some (ord,true)))
    {led : ActorLedger} (found : ledger[ord]? = some led) (distinct : Distinct (ledger.modify ord reborn))
    (gone : Gone (idOf ord led) (actor_name ord led.incarnation) registry registry') :
    Consistent config (registry'.register_named (sim_actor_id ord (led.incarnation + 1))
        (some (actor_name ord (led.incarnation + 1)))).1
      (actors.set ord (sim_actor_id ord (led.incarnation + 1)))
      ((ordinals.erase (idOf ord led).uuid).insert (sim_actor_id ord (led.incarnation + 1)).uuid ord)
      (ledger.modify ord reborn) tasks none := by
  obtain ⟨led₀,found₀,down⟩ := world.fallen ord true rfl
  rw [found] at found₀
  cases found₀
  obtain ⟨unregistered,unnamed⟩ := world.respawn_free found distinct gone
  rw [register_fresh unregistered unnamed]
  have grows : Grows ledger (ledger.modify ord reborn) := grows_modify _ _ _ (fun _ => Nat.le_succ _)
  have distinct₀ : Distinct ledger := distinct.anti grows
  have inside : (ledger.modify ord reborn)[ord]? = some (reborn led) := by simp [found]
  have lift : ∀ {other led'}, other ≠ ord → ledger[other]? = some led' →
      (ledger.modify ord reborn)[other]? = some led' := fun apart found' => modified_other _ apart found'
  have differs : ∀ {other led'}, other ≠ ord → ledger[other]? = some led' →
      idOf other led' ≠ sim_actor_id ord (led.incarnation + 1) := by
    intro other led' apart found' same
    exact apart (distinct other ord led' _ (lift apart found') inside _ (led.incarnation + 1) (Nat.le_refl _)
      (Nat.le_refl _) same).1
  -- Tasks were addressed to earlier incarnations.
  have idle : load (sim_actor_id ord (led.incarnation + 1)) tasks = 0 := by
    refine load_eq_zero (fun t member same => ?_)
    obtain ⟨-,led',found',inc,below,id⟩ := world.tasks t member
    obtain ⟨led'',found'',le⟩ := grows t.ord led' found'
    obtain ⟨here,number⟩ := distinct t.ord ord led'' _ found'' inside inc (led.incarnation + 1) (by omega)
      (Nat.le_refl _) (id.symm.trans same)
    rw [here,found] at found'
    cases found'
    omega
  constructor
  · exact gone.sameConfig.trans world.sameConfig
  · intro other
    by_cases equal : ord = other
    · subst equal
      have inRange : ord < actors.length := by
        rw [world.lengths]
        exact (List.getElem?_eq_some_iff.mp found).1
      simp [inRange,found,idOf,reborn]
    · rw [List.getElem?_set_ne equal,world.actors,List.getElem?_modify]
      simp [equal]
  · intro other led' at_ lives _
    obtain ⟨old,at',rfl⟩ := modified_led at_
    by_cases equal : other = ord
    · subst equal
      rw [found] at at'
      cases at'
      rw [if_pos rfl]
      exact alive_newborn (by simp [idOf,reborn]) (by simp [idOf,reborn]; rfl)
        (by rw [gone.sameConfig,world.sameConfig]; rfl) idle (down.closed rfl)
    · rw [if_neg equal] at lives ⊢
      refine (world.others_alive distinct₀ found gone equal at' lives).congr ?_ ?_ rfl
      · simp [differs equal at']
      · simp [differs equal at']
  · intro other led' at_ dead
    obtain ⟨old,at',rfl⟩ := modified_led at_
    by_cases equal : other = ord
    · subst equal
      rw [found] at at'
      cases at'
      rw [if_pos rfl] at dead
      exact absurd (down.alive.symm.trans dead) (by decide)
    · rw [if_neg equal] at dead ⊢
      obtain ⟨absent,figures⟩ := world.dead other old at' dead
      refine ⟨?_,figures⟩
      simp only [Dict.lookup_insert_ite,differs equal at',if_false]
      rw [gone.ids,absent]
      exact ite_self _
  · intro other settled state
    cases state
  · intro other led' at_ lives
    obtain ⟨old,at',rfl⟩ := modified_led at_
    by_cases equal : other = ord
    · subst equal
      rw [found] at at'
      cases at'
      rw [if_pos rfl]
      exact AList.lookup_insert _
    · rw [if_neg equal] at lives ⊢
      rw [Dict.lookup_insert_ite,if_neg (fun same => differs equal at' (uuid_inj.mp same)),Dict.lookup_erase_ite,
        if_neg (fun same => distinct₀.ne found at' equal (uuid_inj.mp same))]
      exact world.ordinals other old at' lives
  · intro id e entry
    simp only [Dict.lookup_insert_ite] at entry
    split at entry
    · next new => exact ⟨ord,reborn led,inside,down.alive,new⟩
    · obtain ⟨other,led',apart,found',lives,same⟩ := world.others_ids found gone entry
      exact ⟨other,led',lift apart found',lives,same⟩
  · intro name id listed
    simp only [Dict.lookup_insert_ite] at listed
    split at listed
    · next new => exact ⟨ord,reborn led,inside,down.alive,new⟩
    · obtain ⟨other,led',apart,found',lives,same⟩ := world.others_names found gone listed
      exact ⟨other,led',lift apart found',lives,same⟩
  · exact fun t member => (world.tasks t member).mono grows

end
end ActorKit.Sim.Population
