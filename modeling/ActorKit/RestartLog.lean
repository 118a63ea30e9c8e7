import ActorKit.Exits
import Mathlib.Data.List.Induction

/-!
# The restart log against the whole history

`record_restart` prunes the log of a name and reads the clock a second time
after `check_restart_allowed`. Over runs with a clock that never goes back the
pruned log decides what the unpruned history of grants would decide.
-/

namespace ActorKit.RestartLog
open ActorKit.supervisor ActorKit.Window ActorKit.Exits

/-- What an operation charges, to which name and at which readings. -/
def charges (s : Supervisor) : Op → List (String × Grant)
  | .handle_child_exit name reason now mint =>
    if granted s name reason now mint then [(name,(now.check,now.record))] else []
  | _ => []

/-- Every grant of a run, oldest first; nothing is ever pruned from it. -/
def history (s : Supervisor) : List Op → List (String × Grant)
  | [] => []
  | op :: ops => charges s op ++ history (s.apply op) ops

/-- The grants charged to one name. -/
def grantsOf (name : String) (hist : List (String × Grant)) : List Grant :=
  (hist.filter (fun e => e.1 = name)).map (·.2)

/-- The readings at which a list of grants was recorded. -/
def recorded (grants : List Grant) : List Instant := grants.map (·.2)

/-- The timestamps kept for a name. -/
def logOf (s : Supervisor) (name : String) : List Instant := (s.restart_counts.lookup name).getD []

/-- A supervisor as its two constructors build it. -/
def created (id : ActorId) (strategy : SupervisionStrategy) : Option ActorId → Supervisor
  | none => .new id strategy
  | some parent => .with_parent id strategy parent

theorem run_append (s : Supervisor) (ops more : List Op) : s.run (ops ++ more) = (s.run ops).run more :=
  List.foldl_append ..

theorem history_append (s : Supervisor) (ops more : List Op) :
    history s (ops ++ more) = history s ops ++ history (s.run ops) more := by
  induction ops generalizing s with
  | nil => rfl
  | cons op ops ih => simp [history,ih,Supervisor.run]

theorem history_snoc (s : Supervisor) (ops : List Op) (op : Op) :
    history s (ops ++ [op]) = history s ops ++ charges (s.run ops) op := by
  simp [history_append,history]

theorem grantsOf_append (name : String) (hist more : List (String × Grant)) :
    grantsOf name (hist ++ more) = grantsOf name hist ++ grantsOf name more := by
  simp [grantsOf]

theorem charge_log {s : Supervisor} {r : UInt32} {w : Duration} (limited : limits s.strategy = some (r,w))
    (name : String) (now : Instant) (n : String) :
    logOf (s.charge name now) n =
      if n = name then recent now w (logOf s name ++ [now]) else logOf s n := by
  have window : s.strategy.within = some w := by rw [within_limits,limited]; rfl
  simp only [logOf,Supervisor.charge,Supervisor.record_restart,window,Dict.lookup_insert_ite]
  split <;> rfl

/-- The logs change only when something is charged, and then only the log of
    the charged name. -/
theorem apply_log {s : Supervisor} {r : UInt32} {w : Duration} (limited : limits s.strategy = some (r,w)) (op : Op) :
    (charges s op = [] ∧ ∀ n, logOf (s.apply op) n = logOf s n) ∨
    ∃ name reason now mint, op = .handle_child_exit name reason now mint ∧
      charges s op = [(name,(now.check,now.record))] ∧ s.check_restart_allowed name r w now.check = true ∧
      ∀ n, logOf (s.apply op) n =
        if n = name then recent now.record w (logOf s name ++ [now.record]) else logOf s n := by
  cases exit : isExit op with
  | false =>
    have same := (quiet_apply s op exit).1
    refine .inl ⟨?_,fun n => by rw [logOf,same,logOf]⟩
    cases op with
    | handle_child_exit => cases exit
    | _ => rfl
  | true =>
    cases op with
    | handle_child_exit name reason now mint =>
      simp only [Supervisor.apply]
      by_cases allowed : granted s name reason now mint = true
      · obtain ⟨r',w',reached,check⟩ := (granted_iff ..).mp allowed
        have same := decision_limits reached
        rw [limited] at same
        cases same
        refine .inr ⟨name,reason,now,mint,rfl,by simp [charges,allowed],check,fun n => ?_⟩
        rw [← charge_log limited,exit_restarts mint reached check]
        rfl
      · refine .inl ⟨by simp [charges,allowed],fun n => ?_⟩
        obtain ⟨text,stops⟩ := exit_stops allowed
        rw [stops]
        rfl
    | _ => cases exit

/-- With a log that fits `u32` the check compares the exact number of recent
    timestamps. -/
theorem check_iff {s : Supervisor} {name : String} {r : UInt32} {w : Duration} {now : Instant}
    (fits : (recent now w (logOf s name)).length < 2 ^ 32) :
    s.check_restart_allowed name r w now = true ↔ r = 0 ∨ (recent now w (logOf s name)).length < r.toNat := by
  unfold Supervisor.check_restart_allowed
  by_cases unlimited : r = 0
  · simp [unlimited]
  · have positive : 0 < r.toNat := by
      rcases Nat.eq_zero_or_pos r.toNat with zero | positive
      · exact absurd (UInt32.toNat_inj.mp zero) unlimited
      · exact positive
    cases found : s.restart_counts.lookup name with
    | none => simp [logOf,found,unlimited,positive]
    | some log =>
      have short : (recent now w log).length < 2 ^ 32 := by simpa [logOf,found] using fits
      simp only [unlimited,if_false,u32_try_from,short,if_true,Option.getD_some,decide_eq_true_eq,logOf,found,
        false_or,UInt32.lt_iff_toNat_lt,UInt32.toNat_ofNat_of_lt' short]

/-! ## The invariant of a run -/

/-- What a run with limit `r` and window `w` keeps: the pruned logs agree with
    the history from the latest reading on, and neither exceeds the limit. -/
structure LogInvariant (r : UInt32) (w : Duration) (ops : List Op) (s : Supervisor) (hist : List (String × Grant)) :
    Prop where
  limited : limits s.strategy = some (r,w)
  past : ∀ e ∈ hist, e.2.2 ∈ ops.flatMap Op.readings
  sorted : (hist.map (·.2.2)).Pairwise (· ≤ ·)
  agrees : ∀ bound, (∀ t ∈ ops.flatMap Op.readings, t ≤ bound) →
    ∀ name, Agrees w bound (logOf s name) (recorded (grantsOf name hist))
  spaced : r ≠ 0 → ∀ name, Spaced w r.toNat (grantsOf name hist)
  bounded : r ≠ 0 → ∀ name, (logOf s name).length ≤ r.toNat

theorem recorded_sorted {hist : List (String × Grant)} (sorted : (hist.map (·.2.2)).Pairwise (· ≤ ·)) (name : String) :
    (recorded (grantsOf name hist)).Pairwise (· ≤ ·) := by
  have part : (recorded (grantsOf name hist)).Sublist (hist.map (·.2.2)) := by
    simp only [recorded,grantsOf,List.map_map,Function.comp_def]
    exact (List.filter_sublist ..).map _
  exact sorted.sublist part

theorem nonDecreasing_shorter {ops more : List Op} (ordered : NonDecreasing (ops ++ more)) : NonDecreasing ops := by
  rw [NonDecreasing,List.flatMap_append,List.pairwise_append] at ordered
  exact ordered.1

/-- The readings of a last exit come after every earlier reading. -/
theorem nonDecreasing_exit {ops : List Op} {name : String} {reason : ExitReason} {now : Readings}
    {mint : String → ActorId} (ordered : NonDecreasing (ops ++ [.handle_child_exit name reason now mint])) :
    (∀ t ∈ ops.flatMap Op.readings, t ≤ now.check) ∧ now.check ≤ now.record := by
  simp only [NonDecreasing,List.flatMap_append,List.pairwise_append] at ordered
  obtain ⟨-,own,across⟩ := ordered
  simp only [List.flatMap_cons,List.flatMap_nil,Op.readings,List.append_nil,List.pairwise_cons] at own across
  exact ⟨fun t member => across t member now.check List.mem_cons_self,own.1 now.record List.mem_cons_self⟩

theorem invariant_init (id : ActorId) (parent : Option ActorId) {strategy : SupervisionStrategy} {r : UInt32}
    {w : Duration} (limited : limits strategy = some (r,w)) : LogInvariant r w [] (created id strategy parent) [] := by
  have empty : ∀ name, logOf (created id strategy parent) name = [] := by
    intro name; cases parent <;> rfl
  have same : (created id strategy parent).strategy = strategy := by cases parent <;> rfl
  refine ⟨by rw [same]; exact limited,by simp,by simp,?_,fun _ name => spaced_nil w r.toNat,?_⟩
  · intro bound _ name now _
    rw [empty]; rfl
  · intro _ name
    rw [empty]; simp

/-- A charge of the run agrees with the check that allowed it. -/
theorem invariant_check {r : UInt32} {w : Duration} {ops : List Op} {s : Supervisor} {hist : List (String × Grant)}
    (inv : LogInvariant r w ops s hist) {now : Instant} (later : ∀ t ∈ ops.flatMap Op.readings, t ≤ now)
    (name : String) :
    s.check_restart_allowed name r w now = true ↔
      r = 0 ∨ (recent now w (recorded (grantsOf name hist))).length < r.toNat := by
  rw [← inv.agrees now later name now (Nat.le_refl _)]
  by_cases unlimited : r = 0
  · simp [Supervisor.check_restart_allowed,unlimited]
  · refine check_iff ?_
    have kept := inv.bounded unlimited name
    have := recent_length_le now w (logOf s name)
    have := r.toNat_lt
    omega

theorem invariant_step {r : UInt32} {w : Duration} {ops : List Op} {s : Supervisor} {hist : List (String × Grant)}
    (inv : LogInvariant r w ops s hist) (op : Op) (ordered : NonDecreasing (ops ++ [op])) :
    LogInvariant r w (ops ++ [op]) (s.apply op) (hist ++ charges s op) := by
  have limited : limits (s.apply op).strategy = some (r,w) := by rw [(apply_frame s op).1]; exact inv.limited
  have earlier : ∀ t ∈ ops.flatMap Op.readings, t ∈ (ops ++ [op]).flatMap Op.readings := by
    intro t member
    rw [List.flatMap_append]
    exact List.mem_append_left _ member
  rcases apply_log inv.limited op with ⟨nothing,same⟩ | ⟨name,reason,now,mint,rfl,charged,allowed,logs⟩
  · rw [nothing,List.append_nil]
    refine ⟨limited,fun e member => earlier _ (inv.past e member),inv.sorted,?_,inv.spaced,?_⟩
    · intro bound after n
      rw [same]
      exact inv.agrees bound (fun t member => after t (earlier t member)) n
    · intro positive n
      rw [same]
      exact inv.bounded positive n
  · obtain ⟨before,order⟩ := nonDecreasing_exit ordered
    have atRecord : ∀ t ∈ ops.flatMap Op.readings, t ≤ now.record := fun t member =>
      Nat.le_trans (before t member) order
    have mine : grantsOf name [(name,(now.check,now.record))] = [(now.check,now.record)] := by simp [grantsOf]
    have others : ∀ n, n ≠ name → grantsOf n [(name,(now.check,now.record))] = [] := by
      intro n different; simp [grantsOf,Ne.symm different]
    rw [charged]
    refine ⟨limited,?_,?_,?_,?_,?_⟩
    · intro e member
      rcases List.mem_append.mp member with old | new
      · exact earlier _ (inv.past e old)
      · cases List.mem_singleton.mp new
        simp [Op.readings]
    · rw [List.map_append,List.pairwise_append]
      refine ⟨inv.sorted,by simp,?_⟩
      intro t member t' new
      obtain ⟨e,listed,rfl⟩ := List.mem_map.mp member
      simp only [List.map_cons,List.map_nil,List.mem_singleton] at new
      subst new
      exact atRecord _ (inv.past e listed)
    · intro bound after n
      have recordBound : now.record ≤ bound := after _ (by simp [Op.readings])
      rw [logs,grantsOf_append]
      by_cases own : n = name
      · subst own
        simp only [if_true,mine,recorded,List.map_append,List.map_cons,List.map_nil]
        exact ((inv.agrees now.record atRecord n).record (Nat.le_refl _)).mono recordBound
      · simp only [own,if_false,others n own,List.append_nil]
        exact inv.agrees bound (fun t member => after t (earlier t member)) n
    · intro positive n
      rw [grantsOf_append]
      by_cases own : n = name
      · subst own
        rw [mine]
        have few := ((invariant_check inv before n).mp allowed).resolve_left positive
        have limit : 0 < r.toNat := by omega
        exact (spaced_append_iff limit _ (recorded_sorted inv.sorted n)).mpr ⟨inv.spaced positive n,few⟩
      · rw [others n own,List.append_nil]
        exact inv.spaced positive n
    · intro positive n
      rw [logs]
      by_cases own : n = name
      · subst own
        -- What is kept at the record reading was already counted at the check.
        have few := ((invariant_check inv before n).mp allowed).resolve_left positive
        rw [← inv.agrees now.check before n now.check (Nat.le_refl _)] at few
        have kept := recent_anti order w (logOf s n)
        simp only [if_true,recent_append,List.length_append]
        have one := recent_length_le now.record w [now.record]
        simp only [List.length_singleton] at one
        omega
      · simp only [own,if_false]
        exact inv.bounded positive n

theorem invariant_run (id : ActorId) (parent : Option ActorId) {strategy : SupervisionStrategy} {r : UInt32}
    {w : Duration} (limited : limits strategy = some (r,w)) (ops : List Op) (ordered : NonDecreasing ops) :
    LogInvariant r w ops ((created id strategy parent).run ops) (history (created id strategy parent) ops) := by
  induction ops using List.reverseRecOn with
  | nil => exact invariant_init id parent limited
  | append_singleton ops op ih =>
    rw [history_snoc,run_append]
    exact invariant_step (ih (nonDecreasing_shorter ordered)) op ordered

/-- The pruned log decides as the whole history would: a decision at reading `T`
    is granted exactly when the limit is zero or fewer than `r` grants ever
    charged to the name are younger than the window at `T`. So any `r + 1`
    grants of one name span the window, a log never holds more than `r`
    timestamps, and no count misses `u32`. -/
theorem restart_decision_exact (id : ActorId) (parent : Option ActorId) (strategy : SupervisionStrategy) (r : UInt32)
    (w : Duration) (limited : limits strategy = some (r,w)) (ops : List Op) (ordered : NonDecreasing ops) :
    (∀ name reason now mint, NonDecreasing (ops ++ [.handle_child_exit name reason now mint]) →
      decision ((created id strategy parent).run ops) name reason ≠ none →
      (granted ((created id strategy parent).run ops) name reason now mint = true ↔
        r = 0 ∨ (recent now.check w
          (recorded (grantsOf name (history (created id strategy parent) ops)))).length < r.toNat)) ∧
    (r ≠ 0 → ∀ name, Spaced w r.toNat (grantsOf name (history (created id strategy parent) ops))) ∧
    (r ≠ 0 → ∀ name log, ((created id strategy parent).run ops).restart_counts.lookup name = some log →
      log.length ≤ r.toNat ∧ (u32_try_from log.length).isSome ∧
        ∀ now, (u32_try_from (recent now w log).length).isSome) := by
  have inv := invariant_run id parent limited ops ordered
  refine ⟨?_,inv.spaced,?_⟩
  · intro name reason now mint extended reached
    obtain ⟨before,-⟩ := nonDecreasing_exit extended
    rw [granted_iff,← invariant_check inv before name]
    constructor
    · rintro ⟨r',w',found,allowed⟩
      have same := decision_limits found
      rw [inv.limited] at same
      cases same
      exact allowed
    · intro allowed
      obtain ⟨⟨r',w'⟩,found⟩ := Option.ne_none_iff_exists'.mp reached
      have same := decision_limits found
      rw [inv.limited] at same
      cases same
      exact ⟨r,w,found,allowed⟩
  · intro positive name log found
    have kept : log.length ≤ r.toNat := by simpa [logOf,found] using inv.bounded positive name
    have width := r.toNat_lt
    have fits : ∀ n, n ≤ log.length → (u32_try_from n).isSome := by
      intro n small
      have narrow : n < 2 ^ 32 := by omega
      rw [u32_try_from,if_pos narrow]
      rfl
    exact ⟨kept,fits _ (Nat.le_refl _),fun now => fits _ (recent_length_le now w log)⟩

/-- One child that has been restarted once, at reading 0. -/
def restartedOnce : List Op :=
  [.start_child { name := "worker" } ⟨1⟩,.handle_child_exit "worker" .Killed ⟨0,0⟩ (fun _ => ⟨2⟩)]

/-- With limit 1 and window 10 a second exit at reading 9 is refused. -/
theorem restart_decision_exact_inside :
    granted ((created ⟨0⟩ (.OneForOne 1 10) none).run restartedOnce) "worker" .Killed ⟨9,9⟩ (fun _ => ⟨3⟩) = false := by
  have exact := (restart_decision_exact ⟨0⟩ none (.OneForOne 1 10) 1 10 rfl restartedOnce
    (by unfold NonDecreasing; decide)).1 "worker" .Killed ⟨9,9⟩ (fun _ => ⟨3⟩) (by unfold NonDecreasing; decide)
    (by decide)
  rw [Bool.eq_false_iff,ne_eq,exact]
  decide

end ActorKit.RestartLog
