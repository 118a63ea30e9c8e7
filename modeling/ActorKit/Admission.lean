import ActorKit.Registry
import Mathlib.Data.List.Induction

/-!
# Admission of actors

The spawns and kills of `scheduler.rs` under a resource policy (`policy.rs`). An
admission is paid back by `kill` alone, so it is lost when the registration that
follows it fails: the budget is balanced exactly when no admitted spawn finds
its name or its id taken.
-/

namespace ActorKit.scheduler
open ActorKit.mailbox ActorKit.registry

/-- Resource pressure level reported by a monitor. -/
inductive PressureLevel where
  | Normal
  | Elevated
  | Critical
deriving DecidableEq, Repr

/-- Admission control for actor spawns. What an implementation keeps or reads
    (counters, clocks) is its state `σ`. -/
structure ResourcePolicy (σ : Type) where
  admit_actor : σ → σ × Except Error Unit := fun state => (state,.ok ())
  release_actor : σ → σ := fun state => state

/-- The part of a scheduler that spawns and kills. The last two fields are
    ghosts: how often `admit_actor` returned `Ok` and how often `release_actor`
    was called. -/
structure ActorScheduler (σ : Type) where
  registry : ActorRegistry
  total_actors : Nat := 0
  resource_policy : Option (ResourcePolicy σ)
  policy_state : σ
  admitted : Nat := 0
  released : Nat := 0

/-- Check the degradation controller before spawning; `none` without one. -/
def check_degradation : Option PressureLevel → Except Error Unit
  | none | some .Normal | some .Elevated => .ok ()
  | some .Critical => .error (.ResourceExhausted "system resources critically low; actor spawn rejected")

namespace ActorScheduler
variable {σ : Type}

/-- A scheduler with a resource policy. -/
def with_resource_policy (config : MailboxConfig) (policy : ResourcePolicy σ) (state : σ) : ActorScheduler σ where
  registry := .with_mailbox_config config
  resource_policy := some policy
  policy_state := state

def admit_actor (s : ActorScheduler σ) : ActorScheduler σ × Except Error Unit :=
  match s.resource_policy with
  | none => (s,.ok ())
  | some policy => match policy.admit_actor s.policy_state with
    | (policy_state,.ok _) => ({ s with policy_state, admitted := s.admitted + 1 },.ok ())
    | (policy_state,.error e) => ({ s with policy_state },.error e)

def release_actor (s : ActorScheduler σ) : ActorScheduler σ :=
  match s.resource_policy with
  | none => s
  | some policy => { s with policy_state := policy.release_actor s.policy_state, released := s.released + 1 }

/-- Spawn a new actor with a name, under the id that `ActorId::new` mints. -/
def spawn_named (s : ActorScheduler σ) (name : Option String) (id : ActorId) (pressure : Option PressureLevel) :
    ActorScheduler σ × Except Error ActorId :=
  match check_degradation pressure with
  | .error e => (s,.error e)
  | .ok _ => match s.admit_actor with
    | (s,.error e) => (s,.error e)
    | (s,.ok _) => match s.registry.register_named id name with
      | (registry,.error e) => ({ s with registry },.error e)
      | (registry,.ok _) => ({ s with registry, total_actors := fetch_add s.total_actors 1 },.ok id)

/-- Spawn a new actor. -/
def spawn (s : ActorScheduler σ) (id : ActorId) (pressure : Option PressureLevel) :
    ActorScheduler σ × Except Error ActorId :=
  s.spawn_named none id pressure

/-- Kill an actor. -/
def kill (s : ActorScheduler σ) (id : ActorId) : ActorScheduler σ × Except Error Unit :=
  match s.registry.set_state id .Stopped with
  | (registry,.error e) => ({ s with registry },.error e)
  | (registry,.ok _) =>
    let registry := match registry.get_mailbox id with
      | some _ => registry.on_mailbox id Mailbox.clear
      | none => registry
    match registry.unregister id with
    | (registry,.error e) => ({ s with registry },.error e)
    | (registry,.ok _) => ({ s with registry }.release_actor,.ok ())

/-- What the holder of a scheduler calls. -/
inductive Op where
  | spawn (id : ActorId) (pressure : Option PressureLevel)
  | spawn_named (name : Option String) (id : ActorId) (pressure : Option PressureLevel)
  | kill (id : ActorId)
deriving DecidableEq, Repr

def apply (s : ActorScheduler σ) : Op → ActorScheduler σ
  | .spawn id pressure => (s.spawn id pressure).1
  | .spawn_named name id pressure => (s.spawn_named name id pressure).1
  | .kill id => (s.kill id).1

def run (s : ActorScheduler σ) (ops : List Op) : ActorScheduler σ := ops.foldl apply s

end ActorScheduler
end ActorKit.scheduler

namespace ActorKit.Admission
open ActorKit.mailbox ActorKit.registry ActorKit.scheduler ActorKit.scheduler.ActorScheduler
variable {σ : Type}

/-- The admissions that were not paid back. -/
def budget (s : ActorScheduler σ) : Int := s.admitted - s.released

/-- How many actors are registered. -/
def registered (s : ActorScheduler σ) : Nat := s.registry.by_id.keys.length

/-- The operation returns an error. -/
def fails (s : ActorScheduler σ) : Op → Bool
  | .spawn id pressure => (s.spawn id pressure).2.toOption.isNone
  | .spawn_named name id pressure => (s.spawn_named name id pressure).2.toOption.isNone
  | .kill id => (s.kill id).2.toOption.isNone

def isSpawn : Op → Bool
  | .kill _ => false
  | _ => true

/-- The budget is what is registered after every part of the run, and no spawn
    that fails has changed it. -/
structure Accounted (s : ActorScheduler σ) (ops : List Op) : Prop where
  balanced : ∀ before, before <+: ops → budget (s.run before) = registered (s.run before)
  unspent : ∀ before op, before ++ [op] <+: ops → isSpawn op = true → fails (s.run before) op = true →
    budget ((s.run before).apply op) = budget (s.run before)

/-- The policy lets a spawn pass in this state. -/
def admits (s : ActorScheduler σ) : Bool := s.admit_actor.2.toOption.isSome

/-- Nobody holds the id or the name. -/
def free (r : ActorRegistry) (id : ActorId) (name : Option String) : Prop :=
  r.by_id.lookup id = none ∧ ∀ actor_name, name = some actor_name → r.by_name.lookup actor_name = none

/-- A spawn that passes the pressure check and the policy finds its id and its
    name free. -/
def Registers (s : ActorScheduler σ) : Op → Prop
  | .spawn id pressure =>
    check_degradation pressure = .ok () → admits s = true → free s.registry id none
  | .spawn_named name id pressure =>
    check_degradation pressure = .ok () → admits s = true → free s.registry id name
  | .kill _ => True

/-! ## One operation -/

theorem register_named_free {r : ActorRegistry} {id : ActorId} {name : Option String} (unused : free r id name) :
    (r.register_named id name).1.by_id = r.by_id.insert id { name } ∧
      ((r.register_named id name).2.toOption).isSome = true := by
  obtain ⟨fresh,vacant⟩ := unused
  cases name with
  | none => simp [ActorRegistry.register_named,fresh,Except.toOption]
  | some actor_name => simp [ActorRegistry.register_named,fresh,vacant actor_name rfl,Except.toOption]

theorem register_named_taken {r : ActorRegistry} {id : ActorId} {name : Option String} (used : ¬ free r id name) :
    (r.register_named id name).1 = r ∧ ((r.register_named id name).2.toOption).isSome = false := by
  cases known : (r.by_id.lookup id).isSome with
  | true => simp [ActorRegistry.register_named,known,Except.toOption]
  | false =>
    have fresh : r.by_id.lookup id = none := by simpa using known
    cases name with
    | none => exact absurd ⟨fresh,by simp⟩ used
    | some actor_name =>
      cases vacant : r.by_name.lookup actor_name with
      | none =>
        refine absurd ⟨fresh,?_⟩ used
        rintro _ ⟨⟩
        exact vacant
      | some owner => simp [ActorRegistry.register_named,fresh,vacant,Except.toOption]

theorem keys_length_insert (d : Dict ActorId ActorEntry) (id : ActorId) (entry : ActorEntry)
    (fresh : d.lookup id = none) : (d.insert id entry).keys.length = d.keys.length + 1 := by
  have absent : id ∉ d.keys := fun member => AList.lookup_eq_none.mp fresh (AList.mem_keys.mpr member)
  rw [AList.keys_insert,List.erase_of_not_mem absent,List.length_cons]

theorem keys_length_erase (d : Dict ActorId ActorEntry) (id : ActorId) (entry : ActorEntry)
    (found : d.lookup id = some entry) : (d.erase id).keys.length + 1 = d.keys.length := by
  have member : id ∈ d.keys := (Dict.mem_keys_iff d id).mpr ⟨entry,found⟩
  rw [AList.keys_erase,List.length_erase_of_mem member]
  have := List.length_pos_of_mem member
  omega

/-- What asking the policy leaves: an admission when it agrees, and nothing else
    that is counted. -/
theorem admit_actor_counts {s : ActorScheduler σ} {policy : ResourcePolicy σ}
    (installed : s.resource_policy = some policy) :
    s.admit_actor.1.resource_policy = some policy ∧ s.admit_actor.1.registry = s.registry ∧
      s.admit_actor.1.released = s.released ∧
      s.admit_actor.1.admitted = s.admitted + (if admits s then 1 else 0) := by
  cases answered : policy.admit_actor s.policy_state with
  | mk state answer =>
    cases answer <;> simp [admits,ActorScheduler.admit_actor,installed,answered,Except.toOption]

/-- What a spawn can do: it is rejected, it registers the actor, or it is
    admitted and fails. -/
inductive Spawned (policy : ResourcePolicy σ) (s : ActorScheduler σ) (id : ActorId) (name : Option String)
    (pressure : Option PressureLevel) (s' : ActorScheduler σ) (failed : Bool) : Prop where
  | rejected (refused : check_degradation pressure = .ok () → admits s = false) (failure : failed = true)
      (kept : s'.resource_policy = some policy) (admitted : s'.admitted = s.admitted) (released : s'.released = s.released)
      (registry : registered s' = registered s)
  | registers (unused : free s.registry id name) (success : failed = false)
      (kept : s'.resource_policy = some policy) (admitted : s'.admitted = s.admitted + 1)
      (released : s'.released = s.released) (registry : registered s' = registered s + 1)
  | leaks (passed : check_degradation pressure = .ok ()) (agreed : admits s = true)
      (used : ¬ free s.registry id name) (failure : failed = true) (kept : s'.resource_policy = some policy)
      (admitted : s'.admitted = s.admitted + 1) (released : s'.released = s.released)
      (registry : registered s' = registered s)

theorem spawn_named_spawned {s : ActorScheduler σ} {policy : ResourcePolicy σ}
    (installed : s.resource_policy = some policy) (name : Option String) (id : ActorId) (pressure : Option PressureLevel) :
    Spawned policy s id name pressure (s.spawn_named name id pressure).1
      (s.spawn_named name id pressure).2.toOption.isNone := by
  obtain ⟨kept,registry,released,admitted⟩ := admit_actor_counts installed
  cases passed : check_degradation pressure with
  | error e =>
    simp only [ActorScheduler.spawn_named,passed]
    exact .rejected (by intro passes; rw [passed] at passes; cases passes) rfl installed rfl rfl rfl
  | ok _ =>
    cases asked : s.admit_actor with
    | mk t answer =>
      rw [asked] at kept registry released admitted
      cases answer with
      | error e =>
        have refused : admits s = false := by simp [admits,asked,Except.toOption]
        simp only [ActorScheduler.spawn_named,passed,asked]
        simp only [refused] at admitted
        refine .rejected (fun _ => refused) rfl kept admitted released ?_
        rw [registered,registry,registered]
      | ok _ =>
        have agreed : admits s = true := by simp [admits,asked,Except.toOption]
        simp only [agreed,if_true] at admitted
        by_cases unused : free s.registry id name
        · obtain ⟨stored,success⟩ := register_named_free unused
          rw [← registry] at stored success
          cases outcome : t.registry.register_named id name with
          | mk r answer =>
            rw [outcome] at stored success
            cases answer with
            | error e => cases success
            | ok _ =>
              simp only [ActorScheduler.spawn_named,passed,asked,outcome]
              refine .registers unused rfl kept admitted released ?_
              rw [registered,stored,registry]
              exact keys_length_insert _ _ _ unused.1
        · obtain ⟨stored,failure⟩ := register_named_taken unused
          rw [← registry] at stored failure
          cases outcome : t.registry.register_named id name with
          | mk r answer =>
            rw [outcome] at stored failure
            cases answer with
            | ok _ => cases failure
            | error e =>
              simp only [ActorScheduler.spawn_named,passed,asked,outcome]
              refine .leaks (by rw [passed]) agreed unused rfl kept admitted released ?_
              rw [registered,registered,← registry]
              exact congrArg (fun r : ActorRegistry => r.by_id.keys.length) stored

theorem unregister_found {r : ActorRegistry} {id : ActorId} {entry : ActorEntry} (found : r.by_id.lookup id = some entry) :
    (r.unregister id).1.by_id = r.by_id.erase id ∧ (r.unregister id).2 = .ok () := by
  simp [ActorRegistry.unregister,found]

/-- A kill pays back one admission for the actor it unregisters. -/
theorem kill_counts {s : ActorScheduler σ} {policy : ResourcePolicy σ} (installed : s.resource_policy = some policy)
    (id : ActorId) :
    (s.kill id).1.resource_policy = some policy ∧
      budget (s.kill id).1 - registered (s.kill id).1 = budget s - registered s := by
  cases found : s.registry.by_id.lookup id with
  | none => simp [ActorScheduler.kill,ActorRegistry.set_state,found,installed,budget,registered]
  | some entry =>
    have erased := keys_length_erase _ _ _ found
    rw [AList.keys_erase] at erased
    simp only [ActorScheduler.kill,ActorRegistry.set_state,found]
    generalize holds : (match ActorRegistry.get_mailbox _ id with
      | some _ => ActorRegistry.on_mailbox _ id Mailbox.clear
      | none => _) = r
    have by_id : r.by_id = s.registry.by_id.modify id (fun e => { e with state := .Stopped }) := by
      rw [← holds]
      split <;> rfl
    have present : r.by_id.lookup id = some { entry with state := .Stopped } := by simp [by_id,found]
    obtain ⟨stored,success⟩ := unregister_found present
    cases outcome : r.unregister id with
    | mk t answer =>
      rw [outcome] at stored success
      simp only at stored success
      subst success
      simp only [ActorScheduler.release_actor,installed,budget,registered,stored,by_id,AList.keys_erase,Dict.keys_modify]
      refine ⟨trivial,?_⟩
      omega

/-! ## Runs -/

/-- A spawn keeps what is lost, unless it leaks; a spawn that fails otherwise costs nothing. -/
theorem spawn_named_counts {s : ActorScheduler σ} {policy : ResourcePolicy σ} (installed : s.resource_policy = some policy)
    (name : Option String) (id : ActorId) (pressure : Option PressureLevel) :
    (s.spawn_named name id pressure).1.resource_policy = some policy ∧
      ((Registers s (.spawn_named name id pressure) ∧
          budget (s.spawn_named name id pressure).1 - registered (s.spawn_named name id pressure).1 =
            budget s - registered s ∧
          ((s.spawn_named name id pressure).2.toOption.isNone = true →
            budget (s.spawn_named name id pressure).1 = budget s)) ∨
        (¬ Registers s (.spawn_named name id pressure) ∧
          budget (s.spawn_named name id pressure).1 - registered (s.spawn_named name id pressure).1 =
            budget s - registered s + 1)) := by
  have outcome := spawn_named_spawned installed name id pressure
  generalize (s.spawn_named name id pressure).1 = t at outcome ⊢
  generalize (s.spawn_named name id pressure).2.toOption.isNone = failed at outcome ⊢
  cases outcome with
  | rejected refused _ kept admitted released registry =>
    refine ⟨kept,.inl ⟨?_,?_,?_⟩⟩
    · intro passed agreed
      rw [refused passed] at agreed
      cases agreed
    · rw [budget,budget,admitted,released,registry]
    · intro _
      rw [budget,budget,admitted,released]
  | registers unused success kept admitted released registry =>
    refine ⟨kept,.inl ⟨fun _ _ => unused,?_,?_⟩⟩
    · rw [budget,budget,admitted,released,registry]
      omega
    · intro failure
      rw [success] at failure
      cases failure
  | leaks passed agreed used _ kept admitted released registry =>
    refine ⟨kept,.inr ⟨fun meets => used (meets passed agreed),?_⟩⟩
    rw [budget,budget,admitted,released,registry]
    omega

/-- One operation keeps what is lost, unless it is a spawn that leaks. -/
theorem apply_counts {s : ActorScheduler σ} {policy : ResourcePolicy σ} (installed : s.resource_policy = some policy)
    (op : Op) :
    (s.apply op).resource_policy = some policy ∧
      ((Registers s op ∧ budget (s.apply op) - registered (s.apply op) = budget s - registered s ∧
          (isSpawn op = true → fails s op = true → budget (s.apply op) = budget s)) ∨
        (¬ Registers s op ∧ budget (s.apply op) - registered (s.apply op) = budget s - registered s + 1)) := by
  cases op with
  | spawn id pressure =>
    obtain ⟨kept,counted⟩ := spawn_named_counts installed none id pressure
    exact ⟨kept,counted.imp (fun ⟨meets,same,unspent⟩ => ⟨meets,same,fun _ => unspent⟩) (fun leak => leak)⟩
  | spawn_named name id pressure =>
    obtain ⟨kept,counted⟩ := spawn_named_counts installed name id pressure
    exact ⟨kept,counted.imp (fun ⟨meets,same,unspent⟩ => ⟨meets,same,fun _ => unspent⟩) (fun leak => leak)⟩
  | kill id =>
    obtain ⟨kept,same⟩ := kill_counts installed id
    exact ⟨kept,.inl ⟨trivial,same,nofun⟩⟩

theorem run_installed {s : ActorScheduler σ} {policy : ResourcePolicy σ} (installed : s.resource_policy = some policy)
    (ops : List Op) : (s.run ops).resource_policy = some policy := by
  induction ops generalizing s with
  | nil => exact installed
  | cons op ops ih => exact ih (apply_counts installed op).1

theorem run_append (s : ActorScheduler σ) (ops : List Op) (op : Op) : s.run (ops ++ [op]) = (s.run ops).apply op := by
  simp [ActorScheduler.run]

/-- The budget is the number of registered actors, in every run and after every
    failed spawn, exactly when every admitted spawn finds its id and its name
    free. -/
theorem admissions_accounted_iff (policy : ResourcePolicy σ) (state : σ) (config : MailboxConfig) (ops : List Op) :
    Accounted (.with_resource_policy config policy state) ops ↔
      ∀ before op, before ++ [op] <+: ops → Registers (run (.with_resource_policy config policy state) before) op := by
  let start : ActorScheduler σ := .with_resource_policy config policy state
  have installed (before : List Op) : (start.run before).resource_policy = some policy :=
    run_installed rfl before
  constructor
  · -- After a leak the budget would exceed what is registered.
    intro accounted before op part
    by_contra leak
    have shorter : before <+: ops := (List.prefix_append before [op]).trans part
    have balanced := accounted.balanced before shorter
    have later := accounted.balanced (before ++ [op]) part
    rw [run_append] at later
    rcases (apply_counts (installed before) op).2 with ⟨meets,-,-⟩ | ⟨-,lost⟩
    · exact leak meets
    · change budget (start.run before) = registered (start.run before) at balanced
      change budget ((start.run before).apply op) = registered ((start.run before).apply op) at later
      omega
  · intro registers
    constructor
    · intro before
      induction before using List.reverseRecOn with
      | nil => exact fun _ => rfl
      | append_singleton before op ih =>
        intro part
        have balanced := ih ((List.prefix_append before [op]).trans part)
        rw [run_append]
        rcases (apply_counts (installed before) op).2 with ⟨-,same,-⟩ | ⟨leak,-⟩
        · change budget (start.run before) = registered (start.run before) at balanced
          change budget ((start.run before).apply op) = registered ((start.run before).apply op)
          omega
        · exact absurd (registers before op part) leak
    · intro before op part spawns failed
      rcases (apply_counts (installed before) op).2 with ⟨-,-,unspent⟩ | ⟨leak,-⟩
      · exact unspent spawns failed
      · exact absurd (registers before op part) leak

/-- The policy of the tests: at most `max_actors` live actors. -/
def CountingPolicy (max_actors : Nat) : ResourcePolicy Nat where
  admit_actor live :=
    if max_actors ≤ live then
      (live,.error (.ResourceExhausted ("actor limit exceeded (" ++ toString live ++ "/" ++ toString max_actors ++ ")")))
    else (fetch_add live 1,.ok ())
  release_actor live := fetch_sub live 1

/-- A second spawn under one name is admitted and fails: nobody pays it back. -/
theorem duplicate_name_leaks :
    ¬ ∀ (σ : Type) (policy : ResourcePolicy σ) (state : σ) (config : MailboxConfig) (ops : List Op),
      Accounted (.with_resource_policy config policy state) ops := by
  intro always
  have balanced := (always Nat (CountingPolicy 2) 0 {}
    [.spawn_named (some "a") ⟨1⟩ none,.spawn_named (some "a") ⟨2⟩ none]).balanced _ (List.prefix_refl _)
  revert balanced
  decide +kernel

end ActorKit.Admission
