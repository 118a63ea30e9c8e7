import Mathlib.Algebra.BigOperators.Pi
import Mathlib.Algebra.Order.BigOperators.Group.Finset
import Mathlib.Data.Fintype.BigOperators
import Mathlib.Data.Set.Card
import ActorKit.Lib.Ending
import ActorKit.SpecRefinement

/-!
# The runs of the Quint model

Every child of the model goes its own way, from its first crash to the one that
stops it, and no step leads back. So a state is known by how far each child has
got, the states are counted, and every run ends when all children are stopped.
The runs of the supervisor then end there too.
-/

namespace ActorKit.quint
open ActorKit.Transition

section
variable {Child : Type} [DecidableEq Child]

/-- What a child is after so many steps; the last one is the escalation. -/
def lifecycleAt (r n : Nat) : Lifecycle := if n = 2 * r + 1 then .stopped else if n % 2 = 0 then .running else .restarting
def restartsAt (r n : Nat) : Nat := if n = 2 * r + 1 then r else (n + 1) / 2
def escalatedAt (r n : Nat) : Bool := n = 2 * r + 1

/-- The state in which every child has gone so many steps. -/
def place (r : Nat) (p : Child → Nat) : State Child where
  state c := lifecycleAt r (p c)
  restarts c := restartsAt r (p c)
  escalated c := escalatedAt r (p c)

/-- The action that takes a child one step further. -/
def next (p : Child → Nat) (c : Child) : Action Child := if p c % 2 = 0 then .crash c else .resume c

variable {r : Nat} {p : Child → Nat}

omit [DecidableEq Child] in
theorem place_zero : place r (fun _ => 0) = (init : State Child) := by
  simp [place,lifecycleAt,restartsAt,escalatedAt,init]

/-- What a function says about the progress of the children, when one of them
    goes on. -/
theorem update_place {β : Type} (f : Nat → β) (p : Child → Nat) (c : Child) (n : Nat) :
    (fun d => f (Function.update p c n d)) = Function.update (fun d => f (p d)) c (f n) := by
  funext d
  by_cases same : d = c
  · subst same
    simp
  · simp [same]

theorem place_update (c : Child) (n : Nat) :
    place r (Function.update p c n) = {
      state := Function.update (place r p).state c (lifecycleAt r n)
      restarts := Function.update (place r p).restarts c (restartsAt r n)
      escalated := Function.update (place r p).escalated c (escalatedAt r n) } := by
  simp only [place,update_place]

/-- A child that has steps left takes the next one. -/
theorem step_next {c : Child} (below : p c < 2 * r + 1) :
    step r (place r p) (next p c) = some (place r (Function.update p c (p c + 1))) := by
  rw [place_update]
  unfold next
  by_cases even : p c % 2 = 0
  · have running : (place r p).state c = .running := by
      simp only [place,lifecycleAt]
      rw [if_neg (by omega),if_pos even]
    have count : (place r p).restarts c = p c / 2 := by
      simp only [place,restartsAt]
      rw [if_neg (by omega)]
      omega
    rw [if_pos even]
    by_cases last : p c = 2 * r
    · have spent : ¬ (place r p).restarts c < r := by omega
      have stopped : lifecycleAt r (p c + 1) = .stopped := by simp [lifecycleAt,last]
      have escalated : escalatedAt r (p c + 1) = true := by simp [escalatedAt,last]
      have kept : restartsAt r (p c + 1) = (place r p).restarts c := by
        rw [count,restartsAt,if_pos (by omega)]
        omega
      simp only [step,crash,spent,if_false,running,if_true,stopped,escalated,kept,Function.update_eq_self]
    · have left : (place r p).restarts c < r := by omega
      have restarting : lifecycleAt r (p c + 1) = .restarting := by
        rw [lifecycleAt,if_neg (by omega),if_neg (by omega)]
      have kept : escalatedAt r (p c + 1) = (place r p).escalated c := by
        simp only [place,escalatedAt,decide_eq_decide]
        omega
      have more : restartsAt r (p c + 1) = (place r p).restarts c + 1 := by
        rw [count,restartsAt,if_neg (by omega)]
        omega
      simp only [step,crash,left,running,if_true,restarting,kept,more,Function.update_eq_self]
  · have restarting : (place r p).state c = .restarting := by
      simp only [place,lifecycleAt]
      rw [if_neg (by omega),if_neg even]
    have running : lifecycleAt r (p c + 1) = .running := by
      rw [lifecycleAt,if_neg (by omega),if_pos (by omega)]
    have kept : escalatedAt r (p c + 1) = (place r p).escalated c := by
      simp only [place,escalatedAt,decide_eq_decide]
      omega
    have same : restartsAt r (p c + 1) = (place r p).restarts c := by
      simp only [place,restartsAt]
      rw [if_neg (by omega),if_neg (by omega)]
      omega
    rw [if_neg even]
    simp only [step,resume,restarting,if_true,running,kept,same,Function.update_eq_self]

/-- Every step is the next one of a child. -/
theorem step_place {s' : State Child} {a : Action Child} (stepped : step r (place r p) a = some s') (small : ∀ c, p c ≤ 2 * r + 1) :
    ∃ c, p c < 2 * r + 1 ∧ a = next p c ∧ s' = place r (Function.update p c (p c + 1)) := by
  have moves : ∃ c, p c < 2 * r + 1 ∧ a = next p c := by
    cases a with
    | crash c =>
      have running : (place r p).state c = .running := by
        simp only [step,crash] at stepped
        split at stepped
        · split at stepped
          · assumption
          · cases stepped
        · split at stepped
          · assumption
          · cases stepped
      refine ⟨c,?_,?_⟩
      · refine lt_of_le_of_ne (small c) (fun last => ?_)
        simp [place,lifecycleAt,last] at running
      · simp only [place,lifecycleAt] at running
        split at running
        · cases running
        · split at running
          · next even => rw [next,if_pos even]
          · cases running
    | resume c =>
      have restarting : (place r p).state c = .restarting := by
        simp only [step,resume] at stepped
        split at stepped
        · assumption
        · cases stepped
      refine ⟨c,?_,?_⟩
      · refine lt_of_le_of_ne (small c) (fun last => ?_)
        simp [place,lifecycleAt,last] at restarting
      · simp only [place,lifecycleAt] at restarting
        split at restarting
        · cases restarting
        · split at restarting
          · cases restarting
          · next odd => rw [next,if_neg odd]
  obtain ⟨c,below,rfl⟩ := moves
  rw [step_next below] at stepped
  cases stepped
  exact ⟨c,below,rfl,rfl⟩

omit [DecidableEq Child] in
/-- How far the children have got is read off the state. -/
theorem place_injective {q : Child → Nat} (small : ∀ c, p c ≤ 2 * r + 1) (small' : ∀ c, q c ≤ 2 * r + 1)
    (same : place r p = place r q) : p = q := by
  funext c
  have lifecycle : lifecycleAt r (p c) = lifecycleAt r (q c) := congrFun (congrArg State.state same) c
  have restarts : restartsAt r (p c) = restartsAt r (q c) := congrFun (congrArg State.restarts same) c
  have bound := small c
  have bound' := small' c
  unfold lifecycleAt at lifecycle
  unfold restartsAt at restarts
  split_ifs at lifecycle restarts <;> omega

/-! ## Runs -/

variable [Fintype Child]

/-- The states that are reached are those in which every child has got somewhere
    on its way. -/
theorem reachable_iff {s : State Child} :
    Reachable (step r) init s ↔ ∃ p : Child → Nat, (∀ c, p c ≤ 2 * r + 1) ∧ s = place r p := by
  constructor
  · intro reached
    induction reached with
    | start => exact ⟨fun _ => 0,fun _ => Nat.zero_le _,place_zero.symm⟩
    | next _ _ stepped ih =>
      obtain ⟨p,small,rfl⟩ := ih
      obtain ⟨c,below,-,rfl⟩ := step_place stepped small
      refine ⟨_,fun d => ?_,rfl⟩
      by_cases same : d = c
      · subst same
        simpa using below
      · simpa [same] using small d
  · rintro ⟨p,small,rfl⟩
    -- A child that has got anywhere takes its last step back.
    induction total : ∑ c, p c using Nat.strongRecOn generalizing p with
    | _ total ih =>
      subst total
      by_cases start : ∀ c, p c = 0
      · have none : p = fun _ => 0 := funext start
        rw [none,place_zero]
        exact .start
      · obtain ⟨c,moved⟩ := not_forall.mp start
        let q := Function.update p c (p c - 1)
        have back : Function.update q c (q c + 1) = p := by
          simp only [q,Function.update_self,Function.update_idem]
          rw [Nat.sub_add_cancel (by omega),Function.update_eq_self]
        have smaller : ∀ d, q d ≤ p d := by
          intro d
          by_cases same : d = c
          · subst same
            simp [q]
          · simp [q,same]
        have below : q c < p c := by
          simp only [q,Function.update_self]
          omega
        have fewer : ∑ d, q d < ∑ d, p d := Finset.sum_lt_sum (fun d _ => smaller d) ⟨c,Finset.mem_univ c,below⟩
        have before := ih _ fewer q (fun d => (smaller d).trans (small d)) rfl
        have stepped := step_next (r := r) (p := q) (c := c) (by have := small c; omega)
        rw [back] at stepped
        exact .next before trivial stepped

/-- With `r` restarts each, a child is in one of `2 * r + 2` configurations, and
    the children are independent of each other. -/
theorem model_state_space (Child : Type) [DecidableEq Child] [Fintype Child] (r : Nat) :
    Set.ncard {s : State Child | Reachable (step r) init s} = (2 * r + 2) ^ Fintype.card Child := by
  let configuration (q : Child → Fin (2 * r + 2)) : State Child := place r (fun c => q c)
  have apart : Function.Injective configuration := by
    intro q q' same
    have equal := place_injective (fun c => Nat.le_of_lt_succ (q c).isLt) (fun c => Nat.le_of_lt_succ (q' c).isLt) same
    funext c
    exact Fin.ext (congrFun equal c)
  have all : {s : State Child | Reachable (step r) init s} = Set.range configuration := by
    ext s
    rw [Set.mem_ofPred_eq,reachable_iff,Set.mem_range]
    constructor
    · rintro ⟨p,small,rfl⟩
      exact ⟨fun c => ⟨p c,Nat.lt_succ_of_le (small c)⟩,rfl⟩
    · rintro ⟨q,rfl⟩
      exact ⟨fun c => q c,fun c => Nat.le_of_lt_succ (q c).isLt,rfl⟩
  rw [all,Set.ncard_range_of_injective apart,Nat.card_eq_fintype_card,Fintype.card_fun,Fintype.card_fin]

/-- The state space the model's header counts. -/
example : Set.ncard {s : State (Fin 3) | Reachable (step 2) init s} = 216 := by
  rw [model_state_space]
  rfl

/-- One step of one child is one step of them all. -/
theorem sum_next (p : Child → Nat) (c : Child) : ∑ d, Function.update p c (p c + 1) d = ∑ d, p d + 1 := by
  rw [Finset.sum_update_of_mem (Finset.mem_univ c),← Finset.sum_sdiff (Finset.subset_univ {c})]
  simp only [Finset.sum_singleton]
  omega

omit [DecidableEq Child] in
/-- All children together have so many steps, and no more than one way to take
    them all. -/
theorem sum_le (small : ∀ c, p c ≤ 2 * r + 1) :
    ∑ c, p c ≤ Fintype.card Child * (2 * r + 1) ∧
      (∑ c, p c = Fintype.card Child * (2 * r + 1) ↔ ∀ c, p c = 2 * r + 1) := by
  have total : ∑ _c : Child, (2 * r + 1) = Fintype.card Child * (2 * r + 1) := by
    rw [Finset.sum_const,Finset.card_univ,smul_eq_mul]
  rw [← total]
  refine ⟨Finset.sum_le_sum (fun c _ => small c),?_⟩
  rw [Finset.sum_eq_sum_iff_of_le (fun c _ => small c)]
  simp

end
end ActorKit.quint

namespace ActorKit.SpecDrain
open ActorKit.supervisor ActorKit.SpecRefinement ActorKit.quint

variable {r : UInt32} {w : Duration} {names : List String} {s : Supervisor}

/-- After every part of a run the model's children have taken one step for each
    operation. -/
theorem view_place (up : Up r w names s) (positive : 1 ≤ r) {ops : List Op}
    (enabled : ∀ before op, before ++ [op] <+: ops → Enabled (s.run before) op) (close : Close w ops)
    (before : List Op) (part : before <+: ops) :
    ∃ p : { name // name ∈ names } → Nat, (∀ c, p c ≤ 2 * r.toNat + 1) ∧ view names s before = place r.toNat p ∧
      ∑ c, p c = before.length := by
  induction before using List.reverseRecOn with
  | nil =>
    refine ⟨fun _ => 0,fun _ => Nat.zero_le _,?_,by simp⟩
    rw [up.view,place_zero]
  | append_singleton before op ih =>
    have shorter := (List.prefix_append before [op]).trans part
    obtain ⟨p,small,seen,total⟩ := ih shorter
    obtain ⟨-,-,steps⟩ := run_refines up positive enabled close before shorter
    obtain ⟨a,stepped⟩ := steps op part
    rw [seen] at stepped
    obtain ⟨c,below,-,after⟩ := step_place stepped small
    refine ⟨_,fun d => ?_,after,?_⟩
    · by_cases same : d = c
      · subst same
        simpa using below
      · simpa [same] using small d
    · rw [sum_next,total,List.length_append,List.length_singleton]

/-- The names of the children are the names that were started. -/
theorem children_count (up : Up r w names s) : Fintype.card { name // name ∈ names } = s.children.keys.length := by
  have same : names.toFinset = s.children.keys.toFinset := by
    ext name
    rw [List.mem_toFinset,List.mem_toFinset,up.children,Dict.mem_keys_iff]
    exact Option.isSome_iff_exists
  rw [Fintype.card_of_subtype names.toFinset (fun name => List.mem_toFinset),same,
    List.toFinset_card_of_nodup s.children.keys_nodup]

/-- An operation is enabled for every child that the model does not see stopped,
    and for no other. -/
theorem enabled_iff {t : Supervisor} {escalated : List String} {p : { name // name ∈ names } → Nat}
    (small : ∀ c, p c ≤ 2 * r.toNat + 1) (seen : look names t escalated = place r.toNat p)
    (known : ∀ name child, t.children.lookup name = some child → name ∈ names) :
    (∃ op, Enabled t op) ↔ ∃ c, p c < 2 * r.toNat + 1 := by
  have state : ∀ c, (look names t escalated).state c = lifecycleAt r.toNat (p c) :=
    fun c => congrFun (congrArg State.state seen) c
  constructor
  · rintro ⟨op,enabled⟩
    have moving : ∃ name child, t.children.lookup name = some child ∧ lifecycleOf child.state ≠ .stopped := by
      cases op with
      | handle_child_exit name reason now mint =>
        cases reason with
        | Error message =>
          obtain ⟨child,found,running⟩ := enabled
          exact ⟨name,child,found,by rw [running]; simp [lifecycleOf]⟩
        | _ => exact enabled.elim
      | mark_child_running name =>
        obtain ⟨child,attempt,found,restarting⟩ := enabled
        exact ⟨name,child,found,by rw [restarting]; simp [lifecycleOf]⟩
      | _ => exact enabled.elim
    obtain ⟨name,child,found,moves⟩ := moving
    refine ⟨⟨name,known name child found⟩,?_⟩
    refine lt_of_le_of_ne (small _) (fun last => moves ?_)
    have here := state ⟨name,known name child found⟩
    simp only [look,found,last,lifecycleAt,if_true] at here
    exact here
  · rintro ⟨c,below⟩
    have here := state c
    rw [lifecycleAt,if_neg (by omega)] at here
    cases found : t.children.lookup c.1 with
    | none =>
      simp only [look,found] at here
      split at here <;> cases here
    | some child =>
      simp only [look,found] at here
      cases lives : child.state with
      | Running => exact ⟨.handle_child_exit c.1 (.Error "") ⟨0,0⟩ (fun _ => ⟨0⟩),child,found,lives⟩
      | Restarting attempt => exact ⟨.mark_child_running c.1,child,attempt,found,lives⟩
      | Stopped | Stopping =>
        simp only [lives,lifecycleOf] at here
        split at here <;> cases here

/-- With `r` restarts each, `n` permanent children take `n * (2 * r + 1)`
    operations at most, however their crashes and returns are ordered. A run can go
    on until it has taken them all, and then every child is stopped. -/
theorem supervisor_drains (id : ActorId) (parent : Option ActorId) (action : EscalationAction) (r : UInt32)
    (w : Duration) (specs : List (ChildSpec × ActorId))
    (permanent : ∀ spec ∈ specs, spec.1.restart_policy = .Permanent) (positive : 1 ≤ r) (ops : List Op)
    (enabled : ∀ before op, before ++ [op] <+: ops → Enabled ((supervised id parent action r w specs).run before) op)
    (close : Close w ops) :
    ops.length ≤ (supervised id parent action r w specs).children.keys.length * (2 * r.toNat + 1) ∧
    ((¬∃ op, Enabled ((supervised id parent action r w specs).run ops) op) ↔
      ops.length = (supervised id parent action r w specs).children.keys.length * (2 * r.toNat + 1)) ∧
    ((¬∃ op, Enabled ((supervised id parent action r w specs).run ops) op) →
      ∀ name child, ((supervised id parent action r w specs).run ops).children.lookup name = some child →
        ∃ reason, child.state = .Stopped reason) := by
  have up := supervised_up id parent action r w permanent
  obtain ⟨tidy,-⟩ := run_refines up positive enabled close ops (List.prefix_refl ops)
  obtain ⟨p,small,seen,total⟩ := view_place up positive enabled close ops (List.prefix_refl ops)
  have known : ∀ name child, ((supervised id parent action r w specs).run ops).children.lookup name = some child →
      name ∈ specs.map (·.1.name) :=
    fun name child found => (tidy.children name).mpr (by rw [found]; rfl)
  have goes := enabled_iff small seen known
  obtain ⟨bounded,all⟩ := sum_le small
  rw [children_count up,total] at bounded all
  have spent : (¬∃ c, p c < 2 * r.toNat + 1) ↔ ∀ c, p c = 2 * r.toNat + 1 := by
    rw [not_exists]
    exact forall_congr' (fun c => by have := small c; omega)
  refine ⟨bounded,?_,?_⟩
  · rw [goes,spent,all]
  · intro rests name child found
    rw [goes,spent] at rests
    have last := rests ⟨name,known name child found⟩
    have state := congrFun (congrArg State.state seen) ⟨name,known name child found⟩
    simp only [view,look,found,place,last,lifecycleAt,if_true] at state
    cases lives : child.state with
    | Stopped reason => exact ⟨reason,rfl⟩
    | Running | Stopping | Restarting =>
      rw [lives] at state
      cases state

theorem supervisor_drains_failing :
    (¬∃ op, Enabled ((supervised ⟨0⟩ none .Escalate 1 60 [({ name := "worker" },⟨1⟩)]).run failsTwice) op) := by
  have close : Close 60 failsTwice := by
    unfold Close
    decide
  have enabled : ∀ before op, before ++ [op] <+: failsTwice →
      Enabled ((supervised ⟨0⟩ none .Escalate 1 60 [({ name := "worker" },⟨1⟩)]).run before) op := by
    intro before op part
    obtain ⟨rest,same⟩ := part
    rcases before with _ | ⟨first,_ | ⟨second,_ | ⟨third,before⟩⟩⟩
    · cases same
      exact ⟨_,rfl,rfl⟩
    · cases same
      exact ⟨_,_,rfl,rfl⟩
    · cases same
      exact ⟨_,rfl,rfl⟩
    · simp [failsTwice] at same
  have drained := supervisor_drains ⟨0⟩ none .Escalate 1 60 [({ name := "worker" },⟨1⟩)] (by simp) (by decide) failsTwice enabled
    close
  exact drained.2.1.mpr (by decide)

end ActorKit.SpecDrain
