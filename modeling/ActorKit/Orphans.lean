import ActorKit.GroupRestarts

/-!
# Logs that outlive their child

Children and restart logs are two maps under the same names. A charge opens a
log for a child that is present; `remove_child` takes the child and leaves its
log, which the next child of that name inherits. Over a run every log has its
child exactly when every child removed was never charged.
-/

namespace ActorKit.Orphans
open ActorKit.supervisor ActorKit.Window ActorKit.Exits ActorKit.RestartLog ActorKit.GroupRestarts

/-- Every log belongs to a child. -/
def NoOrphans (s : Supervisor) : Prop := ∀ name, (s.restart_counts.lookup name).isSome → (s.children.lookup name).isSome

/-- The log that charges leave where nothing was charged before. -/
def logFrom (w : Duration) (grants : List Grant) : List Instant :=
  grants.foldl (fun log grant => recent grant.2 w (log ++ [grant.2])) []

/-- A run that leaves no log behind. A child starts with its full budget, and its
    restarts are decided by what was charged since. -/
structure Unburdened (s : Supervisor) (ops : List Op) : Prop where
  noOrphans : ∀ before, before <+: ops → NoOrphans (s.run before)
  budget : ∀ before spec id, before ++ [.start_child spec id] <+: ops → (s.run before).children.lookup spec.name = none →
    ∀ r w now, (s.run (before ++ [.start_child spec id])).check_restart_allowed spec.name r w now = true
  decisions : ∀ before spec id during, before ++ [.start_child spec id] ++ during <+: ops →
    (s.run before).children.lookup spec.name = none → ∀ r w, limits s.strategy = some (r,w) → ∀ other : Supervisor,
      logOf other spec.name =
        logFrom w (grantsOf spec.name (history (s.run (before ++ [.start_child spec id])) during)) →
      ∀ now, (s.run (before ++ [.start_child spec id] ++ during)).check_restart_allowed spec.name r w now =
        other.check_restart_allowed spec.name r w now

/-- A child that is removed has no log. -/
def RemovesUncharged (s : Supervisor) : Op → Prop
  | .remove_child name => (s.children.lookup name).isSome → s.restart_counts.lookup name = none
  | _ => True

/-- Every step of the run meets the condition in the state before it. -/
def AllRemoveUncharged (s : Supervisor) : List Op → Prop
  | [] => True
  | op :: ops => RemovesUncharged s op ∧ AllRemoveUncharged (s.apply op) ops

/-! ## One step -/

theorem noOrphans_write {s : Supervisor} (bounded : NoOrphans s) (name : String) (write : SupervisedChild → SupervisedChild) :
    NoOrphans { s with children := s.children.modify name write } := by
  intro key logged
  rw [Dict.lookup_modify]
  have present := bounded key logged
  split
  · rw [Option.isSome_map]
    exact present
  · exact present

theorem noOrphans_exit {s after : Supervisor} {name : String} {reason : ExitReason} {now : Readings}
    {mint : String → ActorId} (bounded : NoOrphans s) (outcome : Outcome s name reason now mint after) :
    NoOrphans after := by
  cases outcome with
  | undecided | refused => exact noOrphans_write bounded name _
  | granted r w reached _ =>
    intro key logged
    have opened : ((s.charge name now.record).restart_counts.lookup key).isSome := logged
    rw [charge_keeps_logs,Bool.or_eq_true,decide_eq_true_eq] at opened
    rw [lookup_restarted,Option.isSome_map]
    rcases opened with rfl | old
    · obtain ⟨child,found⟩ := decision_child reached
      rw [found]
      rfl
    · exact bounded key old

/-- A step leaves no log without its child exactly when it removes no child with
    a log. -/
theorem noOrphans_apply_iff {s : Supervisor} (bounded : NoOrphans s) (op : Op) :
    NoOrphans (s.apply op) ↔ RemovesUncharged s op := by
  have effect := apply_effect s op
  generalize s.apply op = after at effect ⊢
  cases effect with
  | escalation | taken => exact iff_of_true bounded trivial
  | started spec id =>
    refine iff_of_true (fun key logged => ?_) trivial
    rw [Dict.lookup_insert_ite]
    split
    · rfl
    · exact bounded key logged
  | idle _ name aims =>
    refine iff_of_true bounded ?_
    cases op with
    | remove_child => cases aims
    | _ => trivial
  | state _ name aims =>
    refine iff_of_true (noOrphans_write bounded name _) ?_
    cases op with
    | remove_child => cases aims
    | _ => trivial
  | byHand name write => exact iff_of_true (noOrphans_write bounded name write) trivial
  | exit _ _ _ _ _ outcome => exact iff_of_true (noOrphans_exit bounded outcome) trivial
  | removed name =>
    constructor
    · intro left _
      by_contra logged
      have present := left name (Option.isSome_iff_ne_none.mpr logged)
      rw [Dict.lookup_erase_ite,if_pos rfl] at present
      cases present
    · intro uncharged key logged
      have present := bounded key logged
      rw [Dict.lookup_erase_ite]
      split
      · next own =>
        subst own
        rw [uncharged present] at logged
        cases logged
      · exact present

/-! ## Runs -/

theorem allRemoveUncharged_iff {s : Supervisor} (bounded : NoOrphans s) (ops : List Op) :
    (∀ before, before <+: ops → NoOrphans (s.run before)) ↔ AllRemoveUncharged s ops := by
  induction ops generalizing s with
  | nil =>
    refine iff_of_true ?_ trivial
    intro before short
    rw [List.prefix_nil.mp short]
    exact bounded
  | cons op ops ih =>
    constructor
    · intro always
      have first : NoOrphans (s.apply op) := always [op] (List.cons_prefix_cons.mpr ⟨rfl,List.nil_prefix⟩)
      refine ⟨(noOrphans_apply_iff bounded op).mp first,(ih first).mp ?_⟩
      intro before short
      exact always (op :: before) (List.cons_prefix_cons.mpr ⟨rfl,short⟩)
    · rintro ⟨uncharged,rest⟩ before short
      have first := (noOrphans_apply_iff bounded op).mpr uncharged
      rcases List.prefix_cons_iff.mp short with rfl | ⟨more,rfl,shorter⟩
      · exact bounded
      · exact (ih first).mpr rest more shorter

theorem noOrphans_created (id : ActorId) (strategy : SupervisionStrategy) (parent : Option ActorId) :
    NoOrphans (created id strategy parent) := by
  intro name logged
  have none : (created id strategy parent).restart_counts.lookup name = none := by cases parent <;> rfl
  rw [none] at logged
  cases logged

/-- A start leaves the logs alone, so a free name without a log keeps none. -/
theorem start_log {s : Supervisor} (bounded : NoOrphans s) {spec : ChildSpec} (id : ActorId)
    (free : s.children.lookup spec.name = none) : (s.apply (.start_child spec id)).restart_counts.lookup spec.name = none := by
  rw [(quiet_apply s (.start_child spec id) rfl).1]
  by_contra logged
  have present := bounded spec.name (Option.isSome_iff_ne_none.mpr logged)
  rw [free] at present
  cases present

/-- The log of a name after a run is its log before, with the charges of the run
    replayed. -/
theorem logOf_run {r : UInt32} {w : Duration} {s : Supervisor} (limited : limits s.strategy = some (r,w)) (name : String)
    (ops : List Op) : logOf (s.run ops) name =
      (grantsOf name (history s ops)).foldl (fun log grant => recent grant.2 w (log ++ [grant.2])) (logOf s name) := by
  induction ops generalizing s with
  | nil => rfl
  | cons op ops ih =>
    have limited' : limits (s.apply op).strategy = some (r,w) := by rw [(apply_frame s op).1]; exact limited
    have rest := ih limited'
    rw [history,grantsOf_append,List.foldl_append]
    show logOf ((s.apply op).run ops) name = _
    rw [rest]
    rcases apply_log limited op with ⟨nothing,same⟩ | ⟨charged,reason,now,mint,rfl,charge,-,logs⟩
    · rw [nothing,same]
      rfl
    · rw [charge,logs]
      by_cases own : name = charged
      · subst own
        simp [grantsOf]
      · simp [grantsOf,own,Ne.symm own]

/-- A restart is decided by the log alone. -/
theorem check_log {s other : Supervisor} {name : String} (same : logOf s name = logOf other name) (r : UInt32)
    (w : Duration) (now : Instant) :
    s.check_restart_allowed name r w now = other.check_restart_allowed name r w now := by
  have reads : ∀ s : Supervisor, s.check_restart_allowed name r w now = (decide (r = 0) ||
      decide ((u32_try_from (recent now w (logOf s name)).length).getD MAX_RESTART_THRESHOLD < r)) := by
    intro s
    unfold Supervisor.check_restart_allowed
    by_cases unlimited : r = 0
    · simp [unlimited]
    · have positive : (0 : UInt32) < r := UInt32.pos_iff_ne_zero.mpr unlimited
      cases found : s.restart_counts.lookup name with
      | none => simp [unlimited,logOf,found,u32_try_from,positive]
      | some log => simp [unlimited,logOf,found]
  rw [reads,reads,same]

/-- Where no log is left behind, a child starts unburdened. -/
theorem unburdened_of_noOrphans {s : Supervisor} {ops : List Op}
    (always : ∀ before, before <+: ops → NoOrphans (s.run before)) : Unburdened s ops where
  noOrphans := always
  budget := by
    intro before spec id short free r w now
    have bounded := always before ((List.prefix_append _ _).trans short)
    have none := start_log bounded id free
    rw [run_append]
    show ((s.run before).apply (.start_child spec id)).check_restart_allowed spec.name r w now = true
    simp [Supervisor.check_restart_allowed,none]
  decisions := by
    intro before spec id during short free r w limited other same now
    have bounded := always before ((List.prefix_append _ _).trans (by rw [← List.append_assoc]; exact short))
    have empty : logOf (s.run (before ++ [.start_child spec id])) spec.name = [] := by
      have none := start_log bounded id free
      rw [run_append]
      show logOf ((s.run before).apply (.start_child spec id)) spec.name = []
      rw [logOf,none]
      rfl
    have limited' : limits (s.run (before ++ [.start_child spec id])).strategy = some (r,w) := by
      rw [run_strategy]
      exact limited
    refine check_log ?_ r w now
    rw [run_append,logOf_run limited',empty,same]
    rfl

/-- A run leaves no restart history behind exactly when every child it removes
    was never charged for a restart. -/
theorem no_orphaned_history_iff (id : ActorId) (strategy : SupervisionStrategy) (parent : Option ActorId)
    (ops : List Op) :
    Unburdened (created id strategy parent) ops ↔ AllRemoveUncharged (created id strategy parent) ops := by
  rw [← allRemoveUncharged_iff (noOrphans_created id strategy parent) ops]
  exact ⟨Unburdened.noOrphans,unburdened_of_noOrphans⟩

/-- A child that was restarted once is removed, and its name is used again. -/
def reused : List Op := restartedOnce ++ [.remove_child "worker",.start_child { name := "worker" } ⟨3⟩]

/-- With limit 1 the new child has no budget left: its first exit, inside the
    window of the old child's restart, stops it. -/
theorem reused_name_burdened :
    ¬ Unburdened (created ⟨0⟩ (.OneForOne 1 10) none) reused ∧
      granted ((created ⟨0⟩ (.OneForOne 1 10) none).run reused) "worker" .Killed ⟨9,9⟩ (fun _ => ⟨4⟩) = false := by
  refine ⟨fun unburdened => ?_,by decide⟩
  have allowed := unburdened.budget (restartedOnce ++ [.remove_child "worker"]) { name := "worker" } ⟨3⟩
    (List.prefix_refl _) (by decide) 1 10 9
  revert allowed
  decide

end ActorKit.Orphans
