import ActorKit.RestartLog
import ActorKit.Lib.Rate

/-!
# How often a supervisor restarts

The window limits the restarts of a name within any length of time, and the
counters of a supervisor say how many restarts it has granted and in which state
its children are.
-/

namespace ActorKit.RestartRate
open ActorKit.supervisor ActorKit.Window ActorKit.Exits ActorKit.RestartLog

/-- The check of a grant comes before its record. -/
theorem history_ordered (id : ActorId) (parent : Option ActorId) (strategy : SupervisionStrategy) (ops : List Op)
    (ordered : NonDecreasing ops) : ∀ e ∈ history (created id strategy parent) ops, e.2.1 ≤ e.2.2 := by
  induction ops using List.reverseRecOn with
  | nil => simp [history]
  | append_singleton ops op ih =>
    rw [history_snoc]
    intro e member
    rcases List.mem_append.mp member with old | new
    · exact ih (nonDecreasing_shorter ordered) e old
    · cases op with
      | handle_child_exit name reason now mint =>
        simp only [charges] at new
        split at new
        · rw [List.mem_singleton.mp new]
          exact (nonDecreasing_exit ordered).2
        · cases new
      | _ => cases new

/-- In any length of time a name is granted at most `r` restarts for every window
    that it reaches into. -/
theorem restarts_rated (id : ActorId) (parent : Option ActorId) (strategy : SupervisionStrategy) (r : UInt32) (w : Duration)
    (limited : limits strategy = some (r,w)) (positive : r ≠ 0) (windowed : 0 < w) (ops : List Op)
    (ordered : NonDecreasing ops) (name : String) (start : Instant) (time : Duration) :
    ((grantsOf name (history (created id strategy parent) ops)).filter
      (fun g => start ≤ g.2 ∧ g.1 ≤ start + time)).length ≤ r.toNat * (time / w + 1) := by
  have inv := invariant_run id parent limited ops ordered
  let grants := (grantsOf name (history (created id strategy parent) ops)).filter (fun g => start ≤ g.2 ∧ g.1 ≤ start + time)
  have part : grants.Sublist (grantsOf name (history (created id strategy parent) ops)) := List.filter_sublist ..
  have within : ∀ g ∈ grants, start ≤ g.2 ∧ g.1 ≤ start + time := fun g member => by
    simpa using (List.mem_filter.mp member).2
  have limit : 0 < r.toNat := by
    rcases Nat.eq_zero_or_pos r.toNat with zero | some
    · exact absurd (UInt32.toNat_inj.mp zero) positive
    · exact some
  have paired : ∀ g ∈ grants, g.1 ≤ g.2 := by
    intro g member
    obtain ⟨e,listed,rfl⟩ := List.mem_map.mp (part.subset member)
    exact history_ordered id parent strategy ops ordered e (List.mem_filter.mp listed).1
  have near : start + time - start < (time / w + 1) * w := by
    have parts := Nat.div_add_mod time w
    have rest := Nat.mod_lt time windowed
    rw [Nat.succ_mul,Nat.mul_comm (time / w),Nat.add_sub_cancel_left]
    calc time = w * (time / w) + time % w := parts.symm
      _ < w * (time / w) + w := Nat.add_lt_add_left rest _
  exact (inv.spaced positive name |>.sublist part).length_le limit ((recorded_sorted inv.sorted name).sublist (part.map (·.2)))
    paired (fun g member => (within g member).1) (fun g member => (within g member).2) near

/-- With limit 2 and window 10, exits at 0, 1, 2, 10 and 11: the third is refused. -/
def exits : List Op :=
  .start_child { name := "worker" } ⟨1⟩ ::
    [0,1,2,10,11].map (fun t => .handle_child_exit "worker" .Killed ⟨t,t⟩ (fun _ => ⟨2⟩))

theorem restarts_rated_two : (history (created ⟨0⟩ (.OneForOne 2 10) none) exits).length = 4 ∧
    ((grantsOf "worker" (history (created ⟨0⟩ (.OneForOne 2 10) none) exits)).filter
      (fun g => 1 ≤ g.2 ∧ g.1 ≤ 1 + 9)).length ≤ 2 :=
  ⟨by decide +kernel,restarts_rated ⟨0⟩ none (.OneForOne 2 10) 2 10 rfl (by decide) (by decide) exits
    (by unfold NonDecreasing; decide) "worker" 1 9⟩

/-! ## The counters -/

theorem apply_counts (s : Supervisor) (op : Op) :
    (s.apply op).total_restarts = if charges s op = [] then s.total_restarts else saturating_succ 64 s.total_restarts := by
  cases exit : isExit op with
  | false =>
    have nothing : charges s op = [] := by
      cases op with
      | handle_child_exit => cases exit
      | _ => rfl
    rw [if_pos nothing]
    exact (quiet_apply s op exit).2.1
  | true =>
    cases op with
    | handle_child_exit name reason now mint =>
      by_cases allowed : granted s name reason now mint = true
      · have charged : charges s (.handle_child_exit name reason now mint) ≠ [] := by simp [charges,allowed]
        obtain ⟨r,w,reached,check⟩ := (granted_iff ..).mp allowed
        rw [if_neg charged]
        simp only [Supervisor.apply,exit_restarts mint reached check]
        rfl
      · have nothing : charges s (.handle_child_exit name reason now mint) = [] := by simp [charges,allowed]
        obtain ⟨text,stops⟩ := exit_stops allowed
        rw [if_pos nothing]
        simp only [Supervisor.apply,stops]
        rfl
    | _ => cases exit

theorem states_partition (children : List SupervisedChild) :
    (children.filter (fun child => child.state = .Running)).length +
      (children.filter (fun child => !child.state.is_active)).length +
      (children.filter (fun child => child.state.is_active && child.state ≠ .Running)).length = children.length := by
  induction children with
  | nil => rfl
  | cons child children ih =>
    by_cases running : child.state = .Running
    · have active : ChildState.is_active .Running = true := rfl
      simp [running,active] at ih ⊢
      omega
    · by_cases active : child.state.is_active = true
      · simp [active,running] at ih ⊢
        omega
      · simp [active,running] at ih ⊢
        omega

/-- The counters are exact, whatever the clock does: the restarts ever granted, up
    to the largest `u64`, and every child in exactly one of the three states. -/
theorem counters_exact (id : ActorId) (parent : Option ActorId) (strategy : SupervisionStrategy) (ops : List Op) :
    ((created id strategy parent).run ops).count_children.total_restarts =
      min (history (created id strategy parent) ops).length (2 ^ 64 - 1) ∧
    ((created id strategy parent).run ops).count_children.running +
      ((created id strategy parent).run ops).count_children.stopped +
      ((created id strategy parent).run ops).count_children.restarting =
      ((created id strategy parent).run ops).count_children.total := by
  constructor
  · induction ops using List.reverseRecOn with
    | nil => cases parent <;> rfl
    | append_singleton ops op ih =>
      have before : ((created id strategy parent).run ops).total_restarts =
          min (history (created id strategy parent) ops).length (2 ^ 64 - 1) := ih
      have one : (charges ((created id strategy parent).run ops) op).length ≤ 1 := by
        cases op with
        | handle_child_exit =>
          simp only [charges]
          split <;> simp
        | _ => simp [charges]
      show ((created id strategy parent).run (ops ++ [op])).total_restarts = _
      rw [history_snoc,run_append,List.length_append]
      show (((created id strategy parent).run ops).apply op).total_restarts = _
      rw [apply_counts,before]
      by_cases nothing : charges ((created id strategy parent).run ops) op = []
      · rw [if_pos nothing,nothing,List.length_nil,Nat.add_zero]
      · have some : (charges ((created id strategy parent).run ops) op).length = 1 := by
          have := List.length_pos_iff.mpr nothing
          omega
        rw [if_neg nothing,some,saturating_succ]
        omega
  · have size : ∀ s : Supervisor, s.children.keys.length = s.children.values.length := by
      intro s
      simp [AList.keys,List.keys,Dict.values,Dict.items]
    simp only [Supervisor.count_children,size]
    exact states_partition _

end ActorKit.RestartRate
