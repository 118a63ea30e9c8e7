import ActorKit.Lib.Counting
import ActorKit.Sim.Texts

/-!
# Restart accounting of the simulation

The root supervisor keeps a log for each simulated actor. While the readings of
its clock lie within one window nothing leaves a log, so a log is as long as the
incarnation of its actor, and so is the number of restarts the trace grants. The
audits of the restarts follow from the limit on each log.
-/

namespace ActorKit.Sim.Restarts
open ActorKit.supervisor ActorKit.sim ActorKit.Window ActorKit.Sim.Texts

/-- The restart window of the root supervisor: one hour. -/
def window : Duration := 3600000000000

/-- All readings of the supervisor's clock lie within one window. -/
def Close (outside : Outside) : Prop :=
  ∀ k l, (outside.readings k).check - (outside.readings l).record < window ∧
    (outside.readings k).record - (outside.readings l).record < window

/-- The log of one actor. -/
def logOf (sup : Supervisor) (ord : Nat) : List Instant := (sup.restart_counts.lookup (supervisor_name ord)).getD []

/-- A trace entry that is no restart. -/
def Plain (op : TraceOp) : Prop := ∀ target allowed, op ≠ .Restart target allowed

/-- What the root supervisor and the trace say about incarnations. -/
structure Kept (limit : UInt32) (outside : Outside) (sup : Supervisor) (incs : List Nat) (trace : List TraceOp) :
    Prop where
  strategy : sup.strategy = .OneForOne limit window
  escalates : sup.escalation_action = .Escalate
  children : ∀ ord, ord < incs.length →
    ∃ child, sup.children.lookup (supervisor_name ord) = some child ∧ child.spec.restart_policy = .Permanent
  unused : ∀ ord, incs.length ≤ ord → sup.children.lookup (supervisor_name ord) = none
  logs : ∀ ord, (logOf sup ord).length = incs[ord]?.getD 0
  stamps : ∀ ord, ∀ t ∈ logOf sup ord, ∃ k, t = (outside.readings k).record
  bounded : limit ≠ 0 → ∀ inc ∈ incs, inc ≤ limit.toNat
  total : sup.total_restarts ≤ incs.sum
  granted : ∀ target : UInt64, trace.count (.Restart target true) = incs[target.toNat]?.getD 0
  known : ∀ target allowed, TraceOp.Restart target allowed ∈ trace → target.toNat < incs.length

/-- The incarnations after one more restart of `ord`. -/
def bump (ord : Nat) (incs : List Nat) : List Nat := incs.modify ord (· + 1)

theorem bump_getD {ord : Nat} {incs : List Nat} (inside : ord < incs.length) (other : Nat) :
    (bump ord incs)[other]?.getD 0 = incs[other]?.getD 0 + if other = ord then 1 else 0 := by
  unfold bump
  rw [List.getElem?_modify]
  by_cases same : other = ord
  · subst same
    simp [inside]
  · simp [same,Ne.symm same]

theorem bump_sum {ord : Nat} {incs : List Nat} (inside : ord < incs.length) : (bump ord incs).sum = incs.sum + 1 := by
  have moved := Counting.sum_map_modify id (List.getElem?_eq_getElem inside) (· + 1)
  simp only [List.map_id,id] at moved
  unfold bump
  omega

section
variable {limit : UInt32} {outside : Outside} {sup : Supervisor} {incs : List Nat} {trace : List TraceOp}

/-- Entries of the trace that are no restarts change nothing. -/
theorem Kept.traced (kept : Kept limit outside sup incs trace) (ops : List TraceOp) (plain : ∀ op ∈ ops, Plain op) :
    Kept limit outside sup incs (trace ++ ops) where
  strategy := kept.strategy
  escalates := kept.escalates
  children := kept.children
  unused := kept.unused
  logs := kept.logs
  stamps := kept.stamps
  bounded := kept.bounded
  total := kept.total
  granted := by
    intro target
    have new : ops.count (.Restart target true) = 0 :=
      List.count_eq_zero_of_not_mem (fun member => plain _ member target true rfl)
    rw [List.count_append,new]
    exact kept.granted target
  known := by
    intro target allowed member
    rcases List.mem_append.mp member with old | new
    · exact kept.known target allowed old
    · exact absurd rfl (plain _ new target allowed)

/-- Changing a child but not its specification changes nothing. -/
theorem Kept.modified (kept : Kept limit outside sup incs trace) (name : String) (f : SupervisedChild → SupervisedChild)
    (spec : ∀ child, (f child).spec = child.spec) :
    Kept limit outside { sup with children := sup.children.modify name f } incs trace where
  strategy := kept.strategy
  escalates := kept.escalates
  children := by
    intro ord inside
    obtain ⟨child,found,policy⟩ := kept.children ord inside
    by_cases same : supervisor_name ord = name
    · subst same
      exact ⟨f child,by simp [found],by rw [spec]; exact policy⟩
    · exact ⟨child,by simp [same,found],policy⟩
  unused := by
    intro ord outside
    have none := kept.unused ord outside
    simp [none]
  logs := kept.logs
  stamps := kept.stamps
  bounded := kept.bounded
  total := kept.total
  granted := kept.granted
  known := kept.known

theorem Kept.marked (kept : Kept limit outside sup incs trace) (name : String) :
    Kept limit outside (sup.mark_child_running name).1 incs trace := by
  unfold Supervisor.mark_child_running
  split
  · exact kept
  · split
    · exact kept.modified name _ (fun _ => rfl)
    · exact kept.modified name _ (fun _ => rfl)
    · exact kept
    · exact kept

/-- Before the first spawn. -/
theorem kept_new (limit : UInt32) (outside : Outside) (root : ActorId) :
    Kept limit outside (.new root (.OneForOne limit window)) [] [] where
  strategy := rfl
  escalates := rfl
  children := fun ord inside => by simp at inside
  unused := fun _ _ => rfl
  logs := fun _ => rfl
  stamps := fun ord t member => by cases member
  bounded := fun _ inc member => by cases member
  total := Nat.le_refl _
  granted := fun _ => rfl
  known := fun _ _ member => by cases member

/-- A new child is accepted and starts with an empty log. -/
theorem Kept.started (kept : Kept limit outside sup incs trace) (id : ActorId) :
    ∃ sup', sup.start_child { name := supervisor_name incs.length, restart_policy := .Permanent } id = (sup',.ok id) ∧
      Kept limit outside sup' (incs ++ [0]) trace := by
  have free := kept.unused incs.length (Nat.le_refl _)
  unfold Supervisor.start_child
  rw [free]
  have ext : ∀ n : Nat, (incs ++ [0])[n]?.getD 0 = incs[n]?.getD 0 := by
    intro n
    rw [List.getElem?_append]
    split
    · rfl
    · next outside =>
      rw [List.getElem?_eq_none (by omega : incs.length ≤ n)]
      cases n - incs.length <;> simp
  have found : ∀ ord, (sup.children.insert (supervisor_name incs.length)
      { id, spec := { name := supervisor_name incs.length, restart_policy := .Permanent }, state := .Running
        start_order := sup.next_start_order }).lookup (supervisor_name ord) =
      if ord = incs.length then some { id, spec := { name := supervisor_name incs.length, restart_policy := .Permanent }
                                       state := .Running, start_order := sup.next_start_order }
      else sup.children.lookup (supervisor_name ord) := by
    intro ord
    rw [Dict.lookup_insert_ite]
    by_cases same : ord = incs.length
    · simp [same]
    · have apart : supervisor_name ord ≠ supervisor_name incs.length := fun equal => same (supervisor_name_inj equal)
      simp [same,apart]
  refine ⟨_,rfl,?_⟩
  constructor
  · exact kept.strategy
  · exact kept.escalates
  · intro ord inside
    rw [List.length_append,List.length_singleton] at inside
    simp only [found]
    by_cases same : ord = incs.length
    · simp [same]
    · simp only [same,if_false]
      exact kept.children ord (by omega)
  · intro ord outside
    rw [List.length_append,List.length_singleton] at outside
    simp only [found]
    rw [if_neg (by omega)]
    exact kept.unused ord (by omega)
  · intro ord
    rw [ext]
    exact kept.logs ord
  · exact kept.stamps
  · intro some inc member
    rcases List.mem_append.mp member with old | new
    · exact kept.bounded some inc old
    · rw [List.mem_singleton.mp new]
      exact Nat.zero_le _
  · simpa using kept.total
  · intro target
    rw [ext]
    exact kept.granted target
  · intro target allowed member
    have := kept.known target allowed member
    rw [List.length_append]
    omega

/-! ## Exits -/

/-- The decision on an exit compares the incarnation with the limit. -/
theorem Kept.decided (kept : Kept limit outside sup incs trace) (close : Close outside) {ord inc : Nat}
    (found : incs[ord]? = some inc) (k : Nat) :
    sup.check_restart_allowed (supervisor_name ord) limit window (outside.readings k).check =
      decide (limit = 0 ∨ inc < limit.toNat) := by
  unfold Supervisor.check_restart_allowed
  by_cases unlimited : limit = 0
  · simp [unlimited]
  · have small : inc ≤ limit.toNat := kept.bounded unlimited inc (List.mem_of_getElem? found)
    have length := kept.logs ord
    have bits := limit.toNat_lt
    have all : recent (outside.readings k).check window (logOf sup ord) = logOf sup ord := by
      refine List.filter_eq_self.mpr (fun t member => ?_)
      obtain ⟨l,rfl⟩ := kept.stamps ord t member
      simpa using (close k l).1
    rw [found,Option.getD_some] at length
    unfold logOf at length all
    cases log : sup.restart_counts.lookup (supervisor_name ord) with
    | none =>
      rw [log] at length
      have zero : inc = 0 := by simpa using length.symm
      have positive : 0 < limit.toNat := by
        rw [Nat.pos_iff_ne_zero]
        intro zero
        exact unlimited (UInt32.toNat_inj.mp zero)
      simp [unlimited,zero,positive]
    | some timestamps =>
      rw [log,Option.getD_some] at length all
      have fits : (u32_try_from timestamps.length).getD MAX_RESTART_THRESHOLD = UInt32.ofNat inc := by
        rw [length,u32_try_from,if_pos (by omega)]
        rfl
      simp only [unlimited,if_false,all,fits,false_or]
      have value : (UInt32.ofNat inc).toNat = inc := UInt32.toNat_ofNat_of_lt (by simp only [UInt32.size]; omega)
      simp only [UInt32.lt_iff_toNat_lt,value]

theorem toNat_ofNat_ord {ord n : Nat} (inside : ord < n) (small : n ≤ 2 ^ 64) : (UInt64.ofNat ord).toNat = ord :=
  UInt64.toNat_ofNat_of_lt (by simp only [UInt64.size]; omega)

/-- A granted restart is logged, counted and traced. -/
theorem Kept.charged (kept : Kept limit outside sup incs trace) (close : Close outside) {ord inc : Nat}
    (found : incs[ord]? = some inc) (small : incs.length ≤ 2 ^ 64) (allowed : limit = 0 ∨ inc < limit.toNat) (k : Nat) :
    Kept limit outside (sup.charge (supervisor_name ord) (outside.readings k).record) (bump ord incs)
      (trace ++ [.Restart (.ofNat ord) true]) := by
  obtain ⟨inside,value⟩ := List.getElem?_eq_some_iff.mp found
  have length : (bump ord incs).length = incs.length := List.length_modify ..
  have target := toNat_ofNat_ord inside small
  -- Nothing leaves the log.
  have log : ∀ other, logOf (sup.charge (supervisor_name ord) (outside.readings k).record) other =
      if other = ord then logOf sup ord ++ [(outside.readings k).record] else logOf sup other := by
    intro other
    have all : recent (outside.readings k).record window (logOf sup ord ++ [(outside.readings k).record]) =
        logOf sup ord ++ [(outside.readings k).record] := by
      refine List.filter_eq_self.mpr (fun t member => ?_)
      rcases List.mem_append.mp member with old | new
      · obtain ⟨l,rfl⟩ := kept.stamps ord t old
        simpa using (close k l).2
      · rw [List.mem_singleton.mp new]
        simpa using (close k k).2
    unfold logOf at all ⊢
    simp only [Supervisor.charge,Supervisor.record_restart,kept.strategy,SupervisionStrategy.within,all,
      Dict.lookup_insert_ite]
    by_cases same : other = ord
    · simp [same]
    · have apart : supervisor_name other ≠ supervisor_name ord := fun equal => same (supervisor_name_inj equal)
      simp [same,apart]
  constructor
  · exact kept.strategy
  · exact kept.escalates
  · intro other within
    exact kept.children other (by omega)
  · intro other beyond
    exact kept.unused other (by omega)
  · intro other
    rw [log,bump_getD inside]
    by_cases same : other = ord
    · subst same
      simp only [if_true,List.length_append,List.length_singleton]
      rw [kept.logs]
    · simp only [same,if_false]
      exact kept.logs other
  · intro other t member
    rw [log] at member
    by_cases same : other = ord
    · rw [if_pos same] at member
      rcases List.mem_append.mp member with old | new
      · exact kept.stamps ord t old
      · exact ⟨k,List.mem_singleton.mp new⟩
    · rw [if_neg same] at member
      exact kept.stamps other t member
  · intro some grown member
    obtain ⟨other,at_⟩ := List.mem_iff_getElem?.mp member
    have value := bump_getD inside other
    rw [at_,Option.getD_some] at value
    by_cases same : other = ord
    · subst same
      have := allowed.resolve_left some
      simp [found] at value
      omega
    · obtain ⟨within,-⟩ := List.getElem?_eq_some_iff.mp at_
      have old := kept.bounded some _ (List.getElem_mem (show other < incs.length by omega))
      simp [same,show other < incs.length by omega] at value
      omega
  · have := kept.total
    rw [bump_sum inside]
    simp only [Supervisor.charge,Supervisor.record_restart,saturating_succ]
    omega
  · intro other
    have before := kept.granted other
    rw [List.count_append,before,bump_getD inside]
    by_cases same : other.toNat = ord
    · have equal : UInt64.ofNat ord = other := UInt64.toNat_inj.mp (target.trans same.symm)
      simp [same,equal]
    · have apart : UInt64.ofNat ord ≠ other := fun equal => same (by rw [← equal]; exact target)
      simp [same,apart]
  · intro other granted member
    rw [length]
    rcases List.mem_append.mp member with old | new
    · exact kept.known other granted old
    · cases List.mem_singleton.mp new
      rw [target]
      exact inside

/-- A refused restart is traced and leaves everything else. -/
theorem Kept.refused (kept : Kept limit outside sup incs trace) {ord : Nat} (inside : ord < incs.length)
    (small : incs.length ≤ 2 ^ 64) : Kept limit outside sup incs (trace ++ [.Restart (.ofNat ord) false]) where
  strategy := kept.strategy
  escalates := kept.escalates
  children := kept.children
  unused := kept.unused
  logs := kept.logs
  stamps := kept.stamps
  bounded := kept.bounded
  total := kept.total
  granted := by
    intro target
    have new : [TraceOp.Restart (.ofNat ord) false].count (.Restart target true) = 0 := by simp
    rw [List.count_append,new]
    exact kept.granted target
  known := by
    intro target allowed member
    rcases List.mem_append.mp member with old | new
    · exact kept.known target allowed old
    · cases List.mem_singleton.mp new
      rw [toNat_ofNat_ord inside small]
      exact inside

/-- A reported crash is granted or refused. -/
theorem Kept.exited (kept : Kept limit outside sup incs trace) (close : Close outside) {ord : Nat}
    (inside : ord < incs.length) (small : incs.length ≤ 2 ^ 64) (text : String) (k : Nat) (mint : String → ActorId) :
    ∃ sup', (sup.handle_child_exit (supervisor_name ord) (.Error text) (outside.readings k) mint = (sup',.ok ()) ∧
        Kept limit outside sup' (bump ord incs) (trace ++ [.Restart (.ofNat ord) true])) ∨
      (∃ e, sup.handle_child_exit (supervisor_name ord) (.Error text) (outside.readings k) mint = (sup',.error e)) ∧
        Kept limit outside sup' incs (trace ++ [.Restart (.ofNat ord) false]) := by
  obtain ⟨child,listed,policy⟩ := kept.children ord inside
  have found : incs[ord]? = some incs[ord] := List.getElem?_eq_getElem inside
  have decision := kept.decided close found k
  unfold Supervisor.handle_child_exit
  rw [listed]
  simp only [policy,Supervisor.should_restart,Bool.not_true,Bool.false_eq_true,if_false,kept.strategy,
    Supervisor.restart_one_for_one,decision]
  by_cases allowed : limit = 0 ∨ incs[ord] < limit.toNat
  · simp only [allowed,decide_true,Bool.not_true,Bool.false_eq_true,if_false]
    exact ⟨_,.inl ⟨rfl,(kept.charged close found small allowed k).modified _ _ (fun _ => rfl)⟩⟩
  · simp only [allowed,decide_false,Bool.not_false,if_true,Supervisor.handle_max_restarts_exceeded]
    split
    · exact ⟨_,.inr ⟨⟨_,rfl⟩,(kept.refused inside small).modified _ _ (fun _ => rfl)⟩⟩
    · exact ⟨_,.inr ⟨⟨_,rfl⟩,(kept.refused inside small).modified _ _ (fun _ => rfl)⟩⟩
    · next gives_up =>
      rw [kept.escalates] at gives_up
      cases gives_up

/-! ## The audit -/

/-- Counting the granted restarts of the trace never exceeds the limit. -/
theorem audit_fold (s : Sim) (ops : List TraceOp) (allowed : Dict UInt64 Nat)
    (few : ∀ target, (allowed.lookup target).getD 0 + ops.count (.Restart target true) ≤ s.config.max_restarts.toNat)
    {n : Nat} (known : ∀ target granted, TraceOp.Restart target granted ∈ ops → target.toNat < n)
    (keys : ∀ target ∈ allowed.keys, target.toNat < n) :
    ∃ counted, ops.foldlM s.audit_restart allowed = .ok counted ∧ ∀ target ∈ counted.keys, target.toNat < n := by
  induction ops generalizing allowed with
  | nil => exact ⟨allowed,rfl,keys⟩
  | cons op ops ih =>
    have known' : ∀ target granted, TraceOp.Restart target granted ∈ ops → target.toNat < n :=
      fun target granted member => known target granted (List.mem_cons_of_mem _ member)
    have inserted : ∀ (target : UInt64) (count : Nat), target.toNat < n →
        ∀ key ∈ (allowed.insert target count).keys, key.toNat < n := by
      intro target count small key member
      rw [AList.keys_insert,List.mem_cons] at member
      rcases member with rfl | old
      · exact small
      · exact keys key (List.mem_of_mem_erase old)
    rw [List.foldlM_cons]
    match op with
    | .Restart target true =>
      have here := few target
      rw [List.count_cons_self] at here
      have fits : (allowed.lookup target).getD 0 + 1 ≤ s.config.max_restarts.toNat := by omega
      simp only [Sim.audit_restart,if_true,holds_or,fits]
      refine ih _ (fun other => ?_) known' (inserted target _ (known target true List.mem_cons_self))
      have before := few other
      rw [Dict.lookup_insert_ite]
      by_cases same : other = target
      · subst same
        simp only [if_true,Option.getD_some]
        omega
      · rw [List.count_cons_of_ne (by simpa using Ne.symm same)] at before
        simpa [same] using before
    | .Restart target false =>
      simp only [Sim.audit_restart,Bool.false_eq_true,if_false]
      refine ih _ (fun other => ?_) known' (inserted target _ (known target false List.mem_cons_self))
      have before := few other
      rw [List.count_cons_of_ne (by simp)] at before
      rw [Dict.lookup_insert_ite]
      by_cases same : other = target
      · simpa [same] using same ▸ before
      · simpa [same] using before
    | .Spawn _ | .Send .. | .BatchSend .. | .Reject .. | .Deliver .. | .Blocked .. | .Process .. | .ProcessSystem _
    | .Crash .. | .Discard .. | .Kill .. =>
      refine ih allowed (fun other => ?_) known' keys
      have before := few other
      rwa [List.count_cons_of_ne (by simp)] at before

/-- Distinct targets below `n` are at most `n`. -/
theorem keys_bounded (counted : Dict UInt64 Nat) {n : Nat} (keys : ∀ target ∈ counted.keys, target.toNat < n) :
    counted.keys.length ≤ n := by
  have distinct : (counted.keys.map UInt64.toNat).Nodup :=
    (AList.keys_nodup counted).map (fun _ _ same => UInt64.toNat_inj.mp same)
  have inside : counted.keys.map UInt64.toNat ⊆ List.range n := by
    intro key member
    obtain ⟨target,listed,rfl⟩ := List.mem_map.mp member
    exact List.mem_range.mpr (keys target listed)
  simpa using (List.subperm_of_subset distinct inside).length_le

/-- The audit of the restarts fails only where the budget overflows. -/
theorem audit_restarts_passes (s : Sim) {sup : Supervisor} (root : s.tree.supervisors.lookup s.root = some sup)
    (limited : 0 < s.config.max_restarts) (all : incs.length = s.config.actors.toNat)
    (kept : Kept s.config.max_restarts outside sup incs s.trace) :
    s.audit_restarts = .ok () ∨
      s.audit_restarts = .error .Overflow ∧ 2 ^ 64 ≤ s.config.max_restarts.toNat * s.config.actors.toNat := by
  have some : s.config.max_restarts ≠ 0 := by
    intro zero
    rw [zero] at limited
    cases limited
  have sum : incs.sum ≤ incs.length * s.config.max_restarts.toNat := by
    simpa using List.sum_le_card_nsmul incs _ (kept.bounded some)
  unfold Sim.audit_restarts
  by_cases fits : s.config.max_restarts.toNat * s.config.actors.toNat < 2 ^ 64
  · left
    have within : sup.count_children.total_restarts ≤ s.config.max_restarts.toNat * s.config.actors.toNat := by
      have := kept.total
      rw [all,Nat.mul_comm] at sum
      show sup.total_restarts ≤ _
      omega
    have few : ∀ target, (((∅ : Dict UInt64 Nat).lookup target).getD 0) + s.trace.count (.Restart target true) ≤
        s.config.max_restarts.toNat := by
      intro target
      rw [kept.granted]
      cases found : incs[target.toNat]? with
      | none => simp
      | some inc => simpa using kept.bounded some inc (List.mem_of_getElem? found)
    obtain ⟨counted,folds,keys⟩ := audit_fold s s.trace ∅ few kept.known (by simp)
    have size := keys_bounded counted keys
    rw [all] at size
    simp only [root,expect,checked,fits,if_true,holds_or,within,folds,size,bind,Except.bind]
  · right
    refine ⟨?_,Nat.not_lt.mp fits⟩
    simp only [root,expect,checked,fits,if_false,bind,Except.bind]

end
end ActorKit.Sim.Restarts
