import ActorKit.Lib.Recency
import ActorKit.Sim.Audits
import ActorKit.Sim.Energy
import ActorKit.Sim.Frame
import ActorKit.Sim.Notes

/-!
# Round robin as the simulation drives it

The ready set remembers the tick an actor was last served in, and one tick makes
several picks. So the actors one tick has served are level in the records, and the
place in the queue decides among them. The picks of a run are fair exactly when it
decides for the actor served first.
-/

namespace ActorKit.Sim.Fairness
open ActorKit.queue ActorKit.scheduler ActorKit.sim
open ActorKit.Program ActorKit.Hidden ActorKit.Recency
open ActorKit.Sim.Energy ActorKit.Sim.Rounds ActorKit.Sim.Frame ActorKit.Sim.Notes

/-! ## Picks -/

/-- A pick: the ready set it is made from, the tick, the task and what it leaves. -/
structure Pick where
  set : ReadySet
  tick : Nat
  task : SimTask
  left : ReadySet

def actorOf (task : SimTask) : BitVec 128 := actor_key task.task.actor_id

def Pick.actor (p : Pick) : BitVec 128 := actorOf p.task

/-- A pick from the ordinary set. -/
def Pick.Ordinary (p : Pick) : Prop := p.set.priority = []

/-- The actors with a task in the ordinary set. -/
def waiting (set : ReadySet) : List (BitVec 128) := set.ready.map actorOf

/-- The services of a list of picks. -/
def log (picks : List Pick) : List (BitVec 128 × Nat) := picks.map (fun p => (p.actor,p.tick))

/-- The picks of `process_ready`. -/
def processPicks : Nat → Sim → List Pick
  | 0,_ => []
  | draws + 1,s => upon pick_next s (fun picked s' => match picked with
    | some task => ⟨s.ready,s.tick,task,s'.ready⟩ :: upon (process_chosen task) s' (fun _ => processPicks draws)
    | none => [])

/-- The picks of a round; the tick counter may overflow first. -/
def roundPicks (s : Sim) : List Pick :=
  upon (lift (checked (s.tick + 1)) : SimM Nat) s (fun tick s =>
    upon gather { s with tick } (fun _ => processPicks s.config.processing_per_tick.toNat))

/-- The picks of a simulation, in order. -/
def picksOf (seed : UInt64) (config : SimConfig) (draws : Nat → UInt64) (outside : Outside) (runs : List Nat) : List Pick :=
  simulateNotes roundPicks seed config draws outside runs

/-! ## What becomes of the ready set -/

/-- Nobody is served, and tasks arrive at the back of the ordinary queue. -/
structure Grown (set set' : ReadySet) : Prop where
  served : set'.last_served = set.last_served
  arrivals : set.ready <+: set'.ready

theorem Grown.refl (set : ReadySet) : Grown set set := ⟨rfl,List.prefix_rfl⟩

theorem Grown.trans {set set' set'' : ReadySet} (first : Grown set set') (second : Grown set' set'') : Grown set set'' :=
  ⟨second.served.trans first.served,first.arrivals.trans second.arrivals⟩

/-- The ready set over a list of picks. -/
inductive Chained (policy : SchedulingPolicy) : ReadySet → List Pick → ReadySet → Prop
  | idle {set set' : ReadySet} (grown : Grown set set') : Chained policy set [] set'
  | pick {set set' : ReadySet} {picks : List Pick} {p : Pick} {rng rng' : SimRng} (grown : Grown set p.set)
    (taken : p.set.pick policy rng p.tick = .ok (some p.task,p.left,rng')) (rest : Chained policy p.left picks set') :
    Chained policy set (p :: picks) set'

namespace Chained
variable {policy : SchedulingPolicy} {set set' set'' : ReadySet} {picks picks' : List Pick}

theorem grow (grown : Grown set set') (chained : Chained policy set' picks set'') : Chained policy set picks set'' := by
  cases chained with
  | idle grown' => exact .idle (grown.trans grown')
  | pick grown' taken rest => exact .pick (grown.trans grown') taken rest

theorem append (first : Chained policy set picks set') (second : Chained policy set' picks' set'') :
    Chained policy set (picks ++ picks') set'' := by
  induction first with
  | idle grown => exact second.grow grown
  | pick grown taken rest ih => exact .pick grown taken (ih second)

/-- The ready set in the middle. -/
theorem middle {before after : List Pick} {p : Pick} (chained : Chained policy set (before ++ p :: after) set') :
    ∃ set₁ rng rng', Chained policy set before set₁ ∧ Grown set₁ p.set ∧
      p.set.pick policy rng p.tick = .ok (some p.task,p.left,rng') ∧ Chained policy p.left after set' := by
  induction before generalizing set with
  | nil =>
    cases chained with
    | pick grown taken rest => exact ⟨set,_,_,.idle (.refl set),grown,taken,rest⟩
  | cons q before ih =>
    cases chained with
    | pick grown taken rest =>
      obtain ⟨set₁,rng,rng',first,grown',taken',last⟩ := ih rest
      exact ⟨set₁,rng,rng',.pick grown taken first,grown',taken',last⟩

end Chained

/-! ## What the methods do to it -/

/-- Between two picks the configuration and the clock stay as they are. -/
structure Quiet (s s' : Sim) : Prop where
  config : s'.config = s.config
  tick : s'.tick = s.tick
  ready : Grown s.ready s'.ready

theorem quiet_of_leaves {α : Type} {p : SimM α} (leaves : ∀ fixed still, Leaves fixed (Resized still still) p) (s : Sim) :
    Quiet s (final p s) := by
  -- The ordinary queue is hidden as a whole.
  let still : Still := ⟨s.config.actors,s.config.messages,s.ready.ready,s.ready.last_served⟩
  have own : s = Veiled.over ⟨s.config,s.tick⟩ ⟨s.tree,s.root,s.outside,still⟩
      { s with ready := { s.ready with ready := [] } } := by
    simp only [Veiled.over,still,List.append_nil]
  have quiet : ∀ {s' : Sim}, Twin (Veiled.over ⟨s.config,s.tick⟩) (Resized still still) s' s' → Quiet s s' := by
    rintro _ ⟨t,t',rest,related,rfl,-⟩
    have same := related.left
    refine ⟨?_,rfl,?_,?_⟩
    · simp only [Veiled.over,same,still]
    · simp only [Veiled.over,same,still]
    · simp only [Veiled.over,same,still]
      exact List.prefix_append _ _
  have alike := leaves ⟨s.config,s.tick⟩ still s s ⟨_,_,_,⟨rfl,rfl,rfl,rfl,rfl⟩,own,own⟩
  unfold final
  revert alike
  cases p s with
  | ok a s' => exact fun alike => quiet alike.2
  | error e s' => exact fun alike => quiet alike.2

theorem gather_quiet (s : Sim) : Quiet s (final gather s) := by
  refine quiet_of_leaves (fun fixed still => ?_) s
  refine .bind (inject_workload_leaves (fun t t' related => ?_)) (fun _ => .bind deliver_due_leaves (fun _ => retry_blocked_leaves))
  rw [related.left,related.right]

theorem process_chosen_quiet (task : SimTask) (s : Sim) : Quiet s (final (process_chosen task) s) :=
  quiet_of_leaves (fun _ _ => process_chosen_resized task) s

theorem with_config_quiet (s : Sim) : Quiet s (final with_config s) := by
  refine quiet_of_leaves (fun fixed still => ?_) s
  refine .get_bind (fun t t' rest related => ?_) (fun s => .forM _ spawn_actor_resized)
  have same : t.still = t'.still := related.left.trans related.right.symm
  unfold Veiled.over
  rw [same]

/-! ## Rounds -/

/-- The picks of one tick. -/
structure Within (s : Sim) (picks : List Pick) (s' : Sim) : Prop where
  config : s'.config = s.config
  tick : s'.tick = s.tick
  stamped : ∀ p ∈ picks, p.tick = s.tick
  chained : Chained s.config.policy s.ready picks s'.ready

theorem Within.refl (s : Sim) : Within s [] s := ⟨rfl,rfl,by simp,.idle (.refl _)⟩

theorem Within.trans {s s' s'' : Sim} {picks picks' : List Pick} (first : Within s picks s') (second : Within s' picks' s'') :
    Within s (picks ++ picks') s'' := by
  refine ⟨second.config.trans first.config,second.tick.trans first.tick,fun p member => ?_,?_⟩
  · rcases List.mem_append.mp member with earlier | later
    · exact first.stamped p earlier
    · rw [second.stamped p later,first.tick]
  · have chained := second.chained
    rw [first.config] at chained
    exact first.chained.append chained

theorem Quiet.within {s s' : Sim} (quiet : Quiet s s') : Within s [] s' :=
  ⟨quiet.config,quiet.tick,by simp,.idle quiet.ready⟩

theorem process_within (draws : Nat) (s : Sim) : Within s (processPicks draws s) (final (process_ready draws) s) := by
  induction draws generalizing s with
  | zero => exact .refl s
  | succ draws ih =>
    obtain ⟨⟨picked,left,rng⟩,picks⟩ := s.ready.pick_total s.config.policy s.rng s.tick
    have next : pick_next s = .ok picked { s with ready := left, rng } := by
      unfold pick_next
      show (lift (s.ready.pick s.config.policy s.rng s.tick) >>= _ : SimM _) s = _
      rw [picks]
      rfl
    unfold processPicks process_ready
    rw [final_bind next,upon,next]
    cases picked with
    | none =>
      have same : left = s.ready := ReadySet.pick_tasks picks
      subst same
      exact ⟨rfl,rfl,by simp,.idle (.refl _)⟩
    | some task =>
      have first : Within s [⟨s.ready,s.tick,task,left⟩] { s with ready := left, rng } :=
        ⟨rfl,rfl,by simp,.pick (.refl _) picks (.idle (.refl _))⟩
      have chosen := (process_chosen_quiet task { s with ready := left, rng }).within
      exact first.trans (upon_rule Within.trans chosen (fun _ s' _ => ih s'))

theorem processPicks_length (draws : Nat) (s : Sim) : (processPicks draws s).length ≤ draws := by
  induction draws generalizing s with
  | zero => exact Nat.le_refl 0
  | succ draws ih =>
    unfold processPicks upon
    cases pick_next s with
    | error e s' => simp
    | ok picked s' =>
      cases picked with
      | none => simp
      | some task =>
        simp only [List.length_cons]
        cases process_chosen task s' with
        | error e s'' => simp
        | ok _ s'' => exact Nat.succ_le_succ (ih s'')

/-- The picks of several rounds. -/
structure Driven (s : Sim) (picks : List Pick) (s' : Sim) : Prop where
  config : s'.config = s.config
  forward : s.tick ≤ s'.tick
  stamped : ∀ p ∈ picks, s.tick < p.tick ∧ p.tick ≤ s'.tick
  ordered : picks.Pairwise (fun p q => p.tick ≤ q.tick)
  apart : s.config.processing_per_tick.toNat ≤ 1 → picks.Pairwise (fun p q => p.tick < q.tick)
  chained : Chained s.config.policy s.ready picks s'.ready

theorem Driven.refl (s : Sim) : Driven s [] s :=
  ⟨rfl,Nat.le_refl _,by simp,.nil,fun _ => .nil,.idle (.refl _)⟩

theorem Driven.trans {s s' s'' : Sim} {picks picks' : List Pick} (first : Driven s picks s') (second : Driven s' picks' s'') :
    Driven s (picks ++ picks') s'' := by
  have across : ∀ p ∈ picks, ∀ q ∈ picks', p.tick < q.tick := fun p member q member' =>
    Nat.lt_of_le_of_lt (first.stamped p member).2 (second.stamped q member').1
  refine ⟨second.config.trans first.config,first.forward.trans second.forward,fun p member => ?_,?_,fun single => ?_,?_⟩
  · have forward := first.forward
    have later := second.forward
    rcases List.mem_append.mp member with before | after
    · have stamped := first.stamped p before
      omega
    · have stamped := second.stamped p after
      omega
  · exact List.pairwise_append.mpr ⟨first.ordered,second.ordered,fun p member q member' =>
      Nat.le_of_lt (across p member q member')⟩
  · have single' := single
    rw [← first.config] at single'
    exact List.pairwise_append.mpr ⟨first.apart single,second.apart single',across⟩
  · have chained := second.chained
    rw [first.config] at chained
    exact first.chained.append chained

theorem round_final {s : Sim} {tick : Nat} (counted : checked (s.tick + 1) = .ok tick) :
    final sim.round s = final (work s.config.processing_per_tick.toNat) { s with tick } := by
  have ends := final_bind_still (k := fun _ => audit) (fun _ => audit_final)
    (p := work s.config.processing_per_tick.toNat) { s with tick }
  rw [← ends]
  unfold final
  rw [round_run counted]

theorem roundPicks_counted {s : Sim} {tick : Nat} (counted : checked (s.tick + 1) = .ok tick) :
    roundPicks s = upon gather { s with tick } (fun _ => processPicks s.config.processing_per_tick.toNat) := by
  unfold roundPicks
  rw [counted]
  rfl

/-- A round whose tick is counted makes the picks of one tick. -/
theorem round_within {s : Sim} {tick : Nat} (counted : checked (s.tick + 1) = .ok tick) :
    Within { s with tick } (roundPicks s) (final sim.round s) := by
  rw [roundPicks_counted counted,round_final counted,← List.nil_append (upon gather _ _)]
  exact upon_rule Within.trans (gather_quiet _).within (fun _ s' _ => process_within _ s')

/-- A round counts one tick, or none if it overflows. -/
theorem round_tick (s : Sim) : (final sim.round s).tick ≤ s.tick + 1 := by
  cases counted : checked (s.tick + 1) with
  | error e =>
    rw [round_stays counted]
    exact Nat.le_succ _
  | ok tick =>
    rw [(round_within counted).tick]
    exact Nat.le_of_eq (checked_ok counted)

theorem round_driven (s : Sim) : Driven s (roundPicks s) (final sim.round s) := by
  cases counted : checked (s.tick + 1) with
  | error e =>
    have none : roundPicks s = [] := by
      unfold roundPicks upon
      rw [counted]
      rfl
    rw [none,round_stays counted]
    exact .refl s
  | ok tick =>
    have within := round_within counted
    have count : (roundPicks s).length ≤ s.config.processing_per_tick.toNat := by
      rw [roundPicks_counted counted]
      unfold upon
      cases gather { s with tick } with
      | error e s' => simp
      | ok _ s' => exact processPicks_length _ s'
    obtain rfl := checked_ok counted
    have clock : (final sim.round s).tick = s.tick + 1 := within.tick
    have stamped : ∀ p ∈ roundPicks s, p.tick = s.tick + 1 := within.stamped
    refine ⟨within.config,by omega,fun p member => ?_,?_,fun single => ?_,within.chained⟩
    · have stamp := stamped p member
      omega
    · refine List.pairwise_of_forall_mem_list (fun p member q member' => ?_)
      rw [stamped p member,stamped q member']
    · have short : (roundPicks s).length ≤ 1 := count.trans single
      generalize roundPicks s = picks at short
      rcases picks with _ | ⟨p,_ | ⟨q,picks⟩⟩
      · exact .nil
      · exact List.pairwise_singleton _ p
      · simp at short

/-- The picks of a simulation start from an empty ready set. -/
theorem picksOf_driven (seed : UInt64) (config : SimConfig) (draws : Nat → UInt64) (outside : Outside) (runs : List Nat) :
    ∃ s', Driven (.start seed config draws outside) (picksOf seed config draws outside runs) s' := by
  have built := with_config_quiet (.start seed config draws outside)
  have first : Driven (.start seed config draws outside) [] (final with_config (.start seed config draws outside)) :=
    ⟨built.config,Nat.le_of_eq built.tick.symm,by simp,.nil,fun _ => .nil,.idle built.ready⟩
  exact ⟨_,upon_rule Driven.trans first (fun _ s' _ => runs_rule Driven.refl Driven.trans round_driven runs s')⟩

/-! ## Fairness -/

/-- What is expected of the picks of a run. -/
structure Fair (picks : List Pick) : Prop where
  /-- Between two picks from the ordinary set that serve one actor, every actor that
      has a task there throughout is served. -/
  alternates : ∀ before p middle q after, picks = before ++ p :: middle ++ q :: after → p.Ordinary → q.Ordinary →
    q.actor = p.actor → (∀ r ∈ middle, r.Ordinary → r.actor ≠ p.actor) → ∀ other, other ≠ p.actor →
    (∀ r ∈ p :: middle, other ∈ waiting r.left) → other ∈ waiting q.set → ∃ r ∈ middle, r.actor = other
  /-- No waiting actor was served less recently than the one that is picked. -/
  least_recent : ∀ before p after, picks = before ++ p :: after → p.Ordinary →
    ∀ other ∈ waiting p.set, other ≠ p.actor → NoLater (log before) p.actor other
  /-- The task that is taken is the first of its actor. -/
  oldest : ∀ p ∈ picks, p.Ordinary → ∃ front rest, p.set.ready = front ++ p.task :: rest ∧ p.left.ready = front ++ rest ∧
    ∀ task ∈ front, actorOf task ≠ p.actor
  /-- Between two picks tasks only arrive at the back. -/
  arrivals : ∀ before p q after, picks = before ++ p :: q :: after → p.left.ready <+: q.set.ready

/-- A place in the ordinary queue: the first of the actors with the least record. -/
structure First (set : ReadySet) (front : List SimTask) (task : SimTask) (rest : List SimTask) : Prop where
  split : set.ready = front ++ task :: rest
  before : ∀ other ∈ front, set.served task < set.served other
  after : ∀ other ∈ rest, set.served task ≤ set.served other

/-- Where actors are level in the records, the first in the queue is the one served
    first. -/
def Settled (past : List Pick) (set : ReadySet) : Prop :=
  ∀ front task rest, First set front task rest → ∀ other ∈ rest, set.served other = set.served task →
    actorOf other ≠ actorOf task → NoLater (log past) (actorOf task) (actorOf other)

theorem First.unique {set : ReadySet} {front front' rest rest' : List SimTask} {task task' : SimTask}
    (first : First set front task rest) (first' : First set front' task' rest') : task = task' := by
  have same := first.split.symm.trans first'.split
  obtain ⟨between,longer,tail⟩ | ⟨between,longer,tail⟩ := List.append_eq_append_iff.mp same
  · rcases between with _ | ⟨head,between⟩
    · exact (List.cons.inj tail).1
    · obtain ⟨rfl,rfl⟩ := List.cons.inj tail
      have less := first'.before task (by simp [longer])
      have level := first.after task' (by simp)
      omega
  · rcases between with _ | ⟨head,between⟩
    · exact (List.cons.inj tail).1.symm
    · obtain ⟨rfl,rfl⟩ := List.cons.inj tail
      have less := first.before task' (by simp [longer])
      have level := first'.after task (by simp)
      omega

/-- A pick from the ordinary set under round robin. -/
theorem ordinary_first {set left : ReadySet} {rng rng' : SimRng} {tick : Nat} {task : SimTask} (ordinary : set.priority = [])
    (taken : set.pick .RoundRobin rng tick = .ok (some task,left,rng')) :
    ∃ front rest, First set front task rest ∧ left.ready = front ++ rest := by
  obtain ⟨chosen,selects,rfl⟩ := pick_selects taken
  have nearest := least_recent_nearest set
  unfold ReadySet.select at selects
  rw [ordinary] at selects
  cases found : set.least_recent with
  | none =>
    rw [found] at selects
    cases selects
  | some best =>
    obtain ⟨least,idx⟩ := best
    rw [found] at selects nearest
    obtain ⟨front,task',rest,split,rfl,rfl,before,after⟩ := nearest
    have removed := (Prod.mk.inj (Except.ok.inj selects)).1
    unfold ReadySet.remove at removed
    rw [split] at removed
    simp at removed
    obtain ⟨rfl,rfl⟩ := removed
    exact ⟨front,rest,⟨split,before,after⟩,by simp [List.eraseIdx_append_of_length_le]⟩

/-- The records are the stamps of the services so far. -/
theorem Chained.records {policy : SchedulingPolicy} {set set' : ReadySet} {picks : List Pick}
    (chained : Chained policy set picks set') (key : BitVec 128) :
    (set'.last_served.lookup key).getD 0 =
      (log picks).foldl (fun last e => if e.1 = key then e.2 else last) ((set.last_served.lookup key).getD 0) := by
  induction chained with
  | idle grown =>
    rw [grown.served]
    rfl
  | @pick set set' picks p rng rng' grown taken rest ih =>
    obtain ⟨chosen,-,left⟩ := pick_selects taken
    have served : p.left.last_served = p.set.last_served.insert p.actor p.tick := by rw [left]; rfl
    rw [ih,served,grown.served,Dict.lookup_insert_ite]
    show _ = (log picks).foldl _ (if p.actor = key then p.tick else (set.last_served.lookup key).getD 0)
    by_cases own : p.actor = key
    · simp [own]
    · simp [own,Ne.symm own]

section
variable {picks : List Pick} {set' : ReadySet} (chained : Chained .RoundRobin {} picks set')

section
variable {before after : List Pick} {p : Pick} (split : picks = before ++ p :: after)
include chained split

/-- What a pick from the ordinary set is made from. -/
theorem pick_place (ordinary : p.Ordinary) :
    (∀ task, p.set.served task = stamp (log before) (actorOf task)) ∧
      ∃ front rest, First p.set front p.task rest ∧ p.left.ready = front ++ rest := by
  rw [split] at chained
  obtain ⟨set₁,rng,rng',first,grown,taken,-⟩ := chained.middle
  refine ⟨fun task => ?_,ordinary_first ordinary taken⟩
  have records := first.records (actorOf task)
  unfold ReadySet.served
  rw [grown.served]
  exact records

variable (ordered : picks.Pairwise (fun p q => p.tick ≤ q.tick))
include ordered

omit chained in
theorem log_ordered : (log before).Pairwise (fun e e' => e.2 ≤ e'.2) := by
  rw [split] at ordered
  exact List.pairwise_map.mpr (List.pairwise_append.mp ordered).1

/-- A pick serves a least recently served actor where the queue settles ties well,
    and only there. -/
theorem settled_iff (ordinary : p.Ordinary) :
    Settled before p.set ↔ ∀ other ∈ waiting p.set, other ≠ p.actor → NoLater (log before) p.actor other := by
  obtain ⟨stamps,front,rest,first,-⟩ := pick_place chained split ordinary
  constructor
  · intro settled other waits apart
    obtain ⟨task,member,rfl⟩ := List.mem_map.mp waits
    rcases Nat.lt_or_ge (p.set.served p.task) (p.set.served task) with less | level
    · rw [stamps,stamps] at less
      exact noLater_of_stamp_lt (log_ordered split ordered) less
    · rw [first.split] at member
      rcases List.mem_append.mp member with ahead | behind
      · have less := first.before task ahead
        omega
      · rcases List.mem_cons.mp behind with rfl | behind
        · exact absurd rfl apart
        · have least := first.after task behind
          exact settled front p.task rest first task behind (by omega) apart
  · intro least front' task' rest' first' other behind _ apart
    have same := first'.unique first
    subst same
    refine least _ (List.mem_map.mpr ⟨other,?_,rfl⟩) apart
    rw [first'.split]
    exact List.mem_append_right _ (List.mem_cons_of_mem _ behind)

end

variable (ordered : picks.Pairwise (fun p q => p.tick ≤ q.tick))
include chained ordered

theorem fair_of_settled (settled : ∀ before p after, picks = before ++ p :: after → p.Ordinary → Settled before p.set) :
    Fair picks := by
  have least : ∀ before p after, picks = before ++ p :: after → p.Ordinary →
      ∀ other ∈ waiting p.set, other ≠ p.actor → NoLater (log before) p.actor other :=
    fun before p after split ordinary => (settled_iff chained split ordered ordinary).mp (settled before p after split ordinary)
  constructor
  · intro before p middle q after split _ ordinary same _ other apart _ waits
    -- The service of `p` is in the past of `q`, so one of the other actor follows it.
    have later := least (before ++ p :: middle) q after split ordinary other waits (by rw [same]; exact apart)
    obtain ⟨e,member,own⟩ := later (log before) p.tick (log middle) (by simp [log,same])
    obtain ⟨r,inside,rfl⟩ := List.mem_map.mp member
    exact ⟨r,inside,own⟩
  · exact least
  · intro p member ordinary
    obtain ⟨before,after,split⟩ := List.append_of_mem member
    obtain ⟨-,front,rest,first,left⟩ := pick_place chained split ordinary
    refine ⟨front,rest,first.split,left,fun task ahead own => ?_⟩
    have less := first.before task ahead
    have level : p.set.served task = p.set.served p.task := congrArg (fun key => (p.set.last_served.lookup key).getD 0) own
    omega
  · intro before p q after split
    rw [split] at chained
    obtain ⟨-,-,-,-,-,-,rest⟩ := chained.middle
    cases rest with
    | pick grown taken rest => exact grown.arrivals

omit ordered in
/-- Where every tick has one pick at most, no two served actors are level. -/
theorem settled_of_apart (apart : picks.Pairwise (fun p q => p.tick < q.tick)) (positive : ∀ p ∈ picks, 0 < p.tick)
    {before after : List Pick} {p : Pick} (split : picks = before ++ p :: after) (ordinary : p.Ordinary) :
    Settled before p.set := by
  obtain ⟨stamps,-⟩ := pick_place chained split ordinary
  intro front task rest first other behind level differs
  rw [stamps,stamps] at level
  rw [split] at apart positive
  refine noLater_of_stamp_eq (List.pairwise_map.mpr (List.pairwise_append.mp apart).1) (fun e member => ?_)
    (Ne.symm differs) level.symm
  obtain ⟨q,earlier,rfl⟩ := List.mem_map.mp member
  exact positive q (List.mem_append_left _ earlier)

end

/-- The picks of a simulation under round robin are fair exactly when at each pick
    from the ordinary set the queue settles the ties well. With one pick a tick they
    always are. -/
theorem round_robin_fair_iff (seed : UInt64) (config : SimConfig) (draws : Nat → UInt64) (outside : Outside)
    (runs : List Nat) :
    (Fair (picksOf seed { config with policy := .RoundRobin } draws outside runs) ↔
      ∀ before p after, picksOf seed { config with policy := .RoundRobin } draws outside runs = before ++ p :: after →
        p.Ordinary → Settled before p.set) ∧
    (config.processing_per_tick ≤ 1 → Fair (picksOf seed { config with policy := .RoundRobin } draws outside runs)) := by
  obtain ⟨s',driven⟩ := picksOf_driven seed { config with policy := .RoundRobin } draws outside runs
  have chained : Chained .RoundRobin {} (picksOf seed { config with policy := .RoundRobin } draws outside runs) s'.ready :=
    driven.chained
  refine ⟨⟨fun fair before p after split ordinary => ?_,fair_of_settled chained driven.ordered⟩,fun single => ?_⟩
  · exact (settled_iff chained split driven.ordered ordinary).mpr (fair.least_recent before p after split ordinary)
  · refine fair_of_settled chained driven.ordered (fun before p after split ordinary => ?_)
    have positive : ∀ p ∈ picksOf seed { config with policy := .RoundRobin } draws outside runs, 0 < p.tick :=
      fun p member => Nat.zero_lt_of_lt (driven.stamped p member).1
    exact settled_of_apart chained (driven.apart (UInt64.le_iff_toNat_le.mp single)) positive split ordinary

/-! ## A tie that the queue settles badly -/

/-- Two actors and two messages in one tick. -/
def crowded : SimConfig := { actors := 2, messages := 2, injection_rate := .finite 2 }

/-- The first message is for the actor that is served second. -/
def crossed (n : Nat) : UInt64 := if n = 3 then 0 else 0xffffffffffffffff

/-- Whom a pick serves, and who waits before and after it. -/
def shown (p : Pick) : Bool × BitVec 128 × List (BitVec 128) × List (BitVec 128) :=
  (p.set.priority.isEmpty,p.actor,waiting p.set,waiting p.left)

/-- In one tick the second actor is served twice in a row while the first waits. -/
theorem served_twice : ¬ ∀ seed (config : SimConfig) draws outside runs,
    Fair (picksOf seed { config with policy := .RoundRobin } draws outside runs) := by
  intro always
  have fair := always 0 crowded crossed Audits.still [1]
  have seen : (picksOf 0 { crowded with policy := .RoundRobin } crossed Audits.still [1]).map shown =
      let first := actor_key (sim_actor_id 0 0)
      let second := actor_key (sim_actor_id 1 0)
      [(true,first,[first,second,second,first],[second,second,first]),
        (true,second,[second,second,first],[second,first]),(true,second,[second,first],[first]),(true,first,[first],[])] := by
    decide +kernel
  generalize picksOf 0 { crowded with policy := .RoundRobin } crossed Audits.still [1] = picks at fair seen
  obtain ⟨start,_,rfl,-,seen⟩ := List.map_eq_cons_iff.mp seen
  obtain ⟨p,_,rfl,seenP,seen⟩ := List.map_eq_cons_iff.mp seen
  obtain ⟨q,after,rfl,seenQ,-⟩ := List.map_eq_cons_iff.mp seen
  simp only [shown,Prod.mk.injEq,List.isEmpty_iff] at seenP seenQ
  have served := fair.alternates [start] p [] q after rfl seenP.1 seenQ.1 (by rw [seenP.2.1,seenQ.2.1]) (by simp)
    (actor_key (sim_actor_id 0 0)) (by rw [seenP.2.1]; decide) (by simp [seenP.2.2.2]) (by simp [seenQ.2.2.1])
  obtain ⟨r,member,-⟩ := served
  cases member

end ActorKit.Sim.Fairness
