import ActorKit.RestartLog
import ActorKit.Lib.Counting

/-!
# Restarts of a group

Under `OneForAll` and `RestForOne` a granted restart moves siblings that are not
charged for it. The youngest child is moved by every grant, so no child exceeds
the limit exactly when the logs of all names together stay below it at every
granted restart.
-/

namespace ActorKit.GroupRestarts
open ActorKit.supervisor ActorKit.Window ActorKit.Exits ActorKit.RestartLog

/-- The grants of an operation that move the child `key` to `Restarting`. -/
def movedBy (s : Supervisor) (key : String) : Op → List Grant
  | .handle_child_exit name reason now mint =>
    match s.children.lookup key with
    | some child =>
      if granted s name reason now mint && moves s name key child then [(now.check,now.record)] else []
    | none => []
  | _ => []

/-- Every move of one child to `Restarting` in a run, oldest first. -/
def restartsOf (s : Supervisor) (key : String) : List Op → List Grant
  | [] => []
  | op :: ops => movedBy s key op ++ restartsOf (s.apply op) key ops

/-- A new supervisor with its children started in the given order. -/
def started (id : ActorId) (strategy : SupervisionStrategy) (parent : Option ActorId)
    (specs : List (ChildSpec × ActorId)) : Supervisor :=
  (created id strategy parent).run (specs.map (fun c => .start_child c.1 c.2))

/-- Operations that neither add, remove nor rewrite a child. -/
def keepsChildren : Op → Bool
  | .start_child .. | .remove_child .. | .get_child_mut .. => false
  | _ => true

/-- How many timestamps of all names together are younger than the window. -/
def recentTotal (s : Supervisor) (now : Instant) (within : Duration) : Nat :=
  (s.restart_counts.items.map (fun e => (recent now within e.2).length)).sum

/-- A restart that would be granted finds fewer than `r` recent timestamps in
    the logs of the whole group. -/
def BelowGroupLimit (s : Supervisor) : Op → Prop
  | .handle_child_exit name reason now _ => ∀ r w, decision s name reason = some (r,w) →
    s.check_restart_allowed name r w now.check = true → recentTotal s now.check w < r.toNat
  | _ => True

/-- Every step of the run meets the condition in the state before it. -/
def AllBelowGroupLimit (s : Supervisor) : List Op → Prop
  | [] => True
  | op :: ops => BelowGroupLimit s op ∧ AllBelowGroupLimit (s.apply op) ops

theorem run_strategy (s : Supervisor) (ops : List Op) : (s.run ops).strategy = s.strategy := by
  induction ops generalizing s with
  | nil => rfl
  | cons op ops ih => exact (ih (s.apply op)).trans (apply_frame s op).1

theorem allBelow_snoc (s : Supervisor) (ops : List Op) (op : Op) :
    AllBelowGroupLimit s (ops ++ [op]) ↔ AllBelowGroupLimit s ops ∧ BelowGroupLimit (s.run ops) op := by
  induction ops generalizing s with
  | nil => simp [AllBelowGroupLimit,Supervisor.run]
  | cons first ops ih => simp [AllBelowGroupLimit,ih,Supervisor.run,and_assoc]

/-! ## The children of the group stay -/

/-- The position of a child in the start order. -/
def orderOf (s : Supervisor) (key : String) : Option Nat := (s.children.lookup key).map (·.start_order)

theorem orderOf_write (s : Supervisor) (name key : String) (state : ChildState) :
    orderOf { s with children := s.children.modify name (fun c => { c with state := state }) } key = orderOf s key := by
  simp only [orderOf,Dict.lookup_modify]
  split <;> simp [Function.comp_def]

theorem orderOf_apply (s : Supervisor) (op : Op) (keeps : keepsChildren op = true) (key : String) :
    orderOf (s.apply op) key = orderOf s key := by
  have effect := apply_effect s op
  generalize s.apply op = after at effect ⊢
  cases effect with
  | taken | started | removed | byHand => cases keeps
  | escalation | idle => rfl
  | state => exact orderOf_write ..
  | exit name reason now mint _ outcome =>
    cases outcome with
    | undecided | refused => exact orderOf_write ..
    | granted =>
      simp only [orderOf,lookup_restarted,Option.map_map]
      congr 1
      funext child
      simp only [Function.comp_def]
      split <;> rfl

/-- The child started last, if there is one. -/
theorem youngest_exists (s : Supervisor) {key : String} (present : (orderOf s key).isSome) :
    ∃ last top, orderOf s last = some top ∧ ∀ key order, orderOf s key = some order → order ≤ top := by
  have pick : ∀ items : List (String × SupervisedChild), items ≠ [] →
      ∃ e ∈ items, ∀ e' ∈ items, e'.2.start_order ≤ e.2.start_order := by
    intro items
    induction items with
    | nil => intro none; exact absurd rfl none
    | cons first items ih =>
      intro _
      by_cases single : items = []
      · exact ⟨first,by simp [single],by simp [single]⟩
      · obtain ⟨e,member,largest⟩ := ih single
        rcases Nat.le_total first.2.start_order e.2.start_order with later | earlier
        · exact ⟨e,List.mem_cons_of_mem _ member,by simpa [later] using largest⟩
        · refine ⟨first,List.mem_cons_self,?_⟩
          intro e' listed
          rcases List.mem_cons.mp listed with rfl | other
          · exact Nat.le_refl _
          · exact Nat.le_trans (largest e' other) earlier
  obtain ⟨child,found⟩ : ∃ child, s.children.lookup key = some child := by
    simpa [orderOf,Option.isSome_iff_exists] using present
  have listed := (Dict.mem_items s.children key child).mpr found
  obtain ⟨⟨last,oldest⟩,member,largest⟩ := pick s.children.items (List.ne_nil_of_mem listed)
  refine ⟨last,oldest.start_order,by simp [orderOf,(Dict.mem_items ..).mp member],?_⟩
  intro key order ordered
  obtain ⟨child,found,rfl⟩ := Option.map_eq_some_iff.mp ordered
  exact largest (key,child) ((Dict.mem_items ..).mpr found)

/-! ## The logs of the group count the whole history -/

/-- Every name charged so far keeps a log. -/
def Logged (s : Supervisor) (hist : List (String × Grant)) : Prop :=
  ∀ e ∈ hist, (s.restart_counts.lookup e.1).isSome

theorem charge_keeps_logs (s : Supervisor) (name : String) (now : Instant) (n : String) :
    ((s.charge name now).restart_counts.lookup n).isSome = (decide (n = name) || (s.restart_counts.lookup n).isSome) := by
  simp only [Supervisor.charge,Supervisor.record_restart,Dict.lookup_insert_ite]
  by_cases own : n = name <;> simp [own]

theorem logged_step {s : Supervisor} {hist : List (String × Grant)} (logged : Logged s hist) (op : Op) :
    Logged (s.apply op) (hist ++ charges s op) := by
  cases exit : isExit op with
  | false =>
    have none : charges s op = [] := by
      cases op with
      | handle_child_exit => cases exit
      | _ => rfl
    rw [none,List.append_nil,Logged,(quiet_apply s op exit).1]
    exact logged
  | true =>
    cases op with
    | handle_child_exit name reason now mint =>
      simp only [Supervisor.apply,charges]
      by_cases allowed : granted s name reason now mint = true
      · obtain ⟨r,w,reached,check⟩ := (granted_iff ..).mp allowed
        rw [if_pos allowed,exit_restarts mint reached check]
        intro e member
        show ((s.charge name now.record).restart_counts.lookup e.1).isSome
        rw [charge_keeps_logs]
        rcases List.mem_append.mp member with old | new
        · simp [logged e old]
        · cases List.mem_singleton.mp new
          simp
      · obtain ⟨text,stops⟩ := exit_stops allowed
        rw [if_neg allowed,stops,List.append_nil]
        exact logged
    | _ => cases exit

theorem logged_run (id : ActorId) (strategy : SupervisionStrategy) (parent : Option ActorId) (ops : List Op) :
    Logged ((created id strategy parent).run ops) (history (created id strategy parent) ops) := by
  induction ops using List.reverseRecOn with
  | nil => intro e member; cases member
  | append_singleton ops op ih =>
    rw [history_snoc,run_append]
    exact logged_step ih op

theorem recentTotal_eq {r : UInt32} {w : Duration} {ops : List Op} {s : Supervisor} {hist : List (String × Grant)}
    (inv : LogInvariant r w ops s hist) (logged : Logged s hist) {now : Instant}
    (later : ∀ t ∈ ops.flatMap Op.readings, t ≤ now) :
    recentTotal s now w = (recent now w (recorded (hist.map (·.2)))).length := by
  have perName : ∀ name, (recent now w (logOf s name)).length =
      ((hist.filter (fun e => now - e.2.2 < w)).filter (fun e => e.1 = name)).length := by
    intro name
    rw [inv.agrees now later name now (Nat.le_refl _)]
    simp only [recent,recorded,grantsOf,List.map_map,List.filter_map,List.length_map,List.filter_filter,
      Function.comp_def,Bool.and_comm]
  have covered : ∀ e ∈ hist.filter (fun e => now - e.2.2 < w), e.1 ∈ s.restart_counts.keys := by
    intro e member
    exact AList.mem_keys.mp (AList.lookup_isSome.mp (logged e (List.mem_of_mem_filter member)))
  calc recentTotal s now w
      = (s.restart_counts.keys.map (fun k => (recent now w (logOf s k)).length)).sum := by
        rw [recentTotal,Dict.items_map_snd _ (fun log => (recent now w log).length) []]; rfl
    _ = (s.restart_counts.keys.map (fun k =>
          ((hist.filter (fun e => now - e.2.2 < w)).filter (fun e => e.1 = k)).length)).sum := by
        simp only [perName]
    _ = (hist.filter (fun e => now - e.2.2 < w)).length :=
        Counting.sum_filter_length (fun e : String × Grant => e.1) _ s.restart_counts.keys_nodup _ covered
    _ = (recent now w (recorded (hist.map (·.2)))).length := by
        simp [recent,recorded,List.filter_map,Function.comp_def]

/-! ## The limit of the group -/

theorem movedBy_sublist (s : Supervisor) (key : String) (op : Op) :
    (movedBy s key op).Sublist ((charges s op).map (·.2)) := by
  cases op with
  | handle_child_exit name reason now mint =>
    simp only [movedBy,charges]
    cases granted s name reason now mint <;> split <;> (try split) <;> simp_all
  | _ => exact List.Sublist.refl _

theorem restartsOf_sublist (s : Supervisor) (key : String) (ops : List Op) :
    (restartsOf s key ops).Sublist ((history s ops).map (·.2)) := by
  induction ops generalizing s with
  | nil => exact List.Sublist.refl _
  | cons op ops ih =>
    simp only [restartsOf,history,List.map_append]
    exact (movedBy_sublist s key op).append (ih _)

/-- Under a group strategy every grant moves the child started last. -/
theorem movedBy_youngest {s : Supervisor} {r : UInt32} {w : Duration}
    (group : s.strategy = .OneForAll r w ∨ s.strategy = .RestForOne r w) {last : String} {top : Nat}
    (ordered : orderOf s last = some top) (largest : ∀ key order, orderOf s key = some order → order ≤ top) (op : Op) :
    movedBy s last op = (charges s op).map (·.2) := by
  cases op with
  | handle_child_exit name reason now mint =>
    obtain ⟨child,found,rfl⟩ := Option.map_eq_some_iff.mp ordered
    simp only [movedBy,charges,found]
    by_cases allowed : granted s name reason now mint = true
    · obtain ⟨r',w',reached,-⟩ := (granted_iff ..).mp allowed
      obtain ⟨failed,failedFound⟩ := decision_child reached
      have earlier : failed.start_order ≤ child.start_order :=
        largest name failed.start_order (by simp [orderOf,failedFound])
      have moved : moves s name last child = true := by
        rcases group with all | rest
        · simp [moves,all]
        · simp [moves,rest,failedFound,earlier]
      simp [allowed,moved]
    · simp [allowed]
  | _ => rfl

theorem restartsOf_youngest {s : Supervisor} {r : UInt32} {w : Duration}
    (group : s.strategy = .OneForAll r w ∨ s.strategy = .RestForOne r w) {last : String} {top : Nat}
    (ordered : orderOf s last = some top) (largest : ∀ key order, orderOf s key = some order → order ≤ top)
    (ops : List Op) (keeps : ∀ op ∈ ops, keepsChildren op = true) :
    restartsOf s last ops = (history s ops).map (·.2) := by
  induction ops generalizing s with
  | nil => rfl
  | cons op ops ih =>
    have stays := orderOf_apply s op (keeps op List.mem_cons_self)
    simp only [restartsOf,history,List.map_append]
    rw [movedBy_youngest group ordered largest op,
      ih (by rw [(apply_frame s op).1]; exact group) (by rw [stays]; exact ordered)
        (by intro key order; rw [stays]; exact largest key order)
        (fun op member => keeps op (List.mem_cons_of_mem _ member))]

theorem history_without_children {s : Supervisor} (empty : ∀ key, orderOf s key = none) (ops : List Op)
    (keeps : ∀ op ∈ ops, keepsChildren op = true) : history s ops = [] := by
  induction ops generalizing s with
  | nil => rfl
  | cons op ops ih =>
    have stays := orderOf_apply s op (keeps op List.mem_cons_self)
    have none : charges s op = [] := by
      cases op with
      | handle_child_exit name reason now mint =>
        simp only [charges]
        split
        · next allowed =>
          obtain ⟨r,w,reached,-⟩ := (granted_iff ..).mp allowed
          obtain ⟨child,found⟩ := decision_child reached
          have := empty name
          simp [orderOf,found] at this
        · rfl
      | _ => rfl
    simp only [history,none,List.nil_append]
    exact ih (fun key => by rw [stays]; exact empty key) (fun op member => keeps op (List.mem_cons_of_mem _ member))

/-- The youngest child stands for the group: every child is within the limit
    exactly when the grants of all names together are. -/
theorem spaced_group_iff {s : Supervisor} {r : UInt32} {w : Duration}
    (group : s.strategy = .OneForAll r w ∨ s.strategy = .RestForOne r w) (ops : List Op)
    (keeps : ∀ op ∈ ops, keepsChildren op = true) :
    (∀ key, Spaced w r.toNat (restartsOf s key ops)) ↔ Spaced w r.toNat ((history s ops).map (·.2)) := by
  constructor
  · intro each
    by_cases children : ∃ key, (orderOf s key).isSome
    · obtain ⟨key,present⟩ := children
      obtain ⟨last,top,ordered,largest⟩ := youngest_exists s present
      rw [← restartsOf_youngest group ordered largest ops keeps]
      exact each last
    · have empty : ∀ key, orderOf s key = none := by
        intro key
        by_contra present
        exact children ⟨key,Option.isSome_iff_ne_none.mpr present⟩
      rw [history_without_children empty ops keeps]
      exact spaced_nil w r.toNat
  · intro all key
    exact all.sublist (restartsOf_sublist s key ops)

theorem started_limits {strategy : SupervisionStrategy} {r : UInt32} {w : Duration}
    (group : strategy = .OneForAll r w ∨ strategy = .RestForOne r w) : limits strategy = some (r,w) := by
  rcases group with rfl | rfl <;> rfl

/-- Starting children charges nothing and reads no clock. -/
theorem started_quiet (id : ActorId) (strategy : SupervisionStrategy) (parent : Option ActorId)
    (specs : List (ChildSpec × ActorId)) (ops : List Op) :
    history (created id strategy parent) (specs.map (fun c => Op.start_child c.1 c.2) ++ ops) =
      history (started id strategy parent specs) ops ∧
    (specs.map (fun c => Op.start_child c.1 c.2) ++ ops).flatMap Op.readings = ops.flatMap Op.readings := by
  have silent : (∀ s, history s (specs.map (fun c => Op.start_child c.1 c.2)) = []) ∧
      (specs.map (fun c => Op.start_child c.1 c.2)).flatMap Op.readings = [] := by
    induction specs with
    | nil => exact ⟨fun _ => rfl,rfl⟩
    | cons c specs ih =>
      refine ⟨fun s => ?_,ih.2⟩
      simp only [List.map_cons,history,charges,List.nil_append,ih.1]
  constructor
  · rw [history_append,silent.1,List.nil_append]; rfl
  · rw [List.flatMap_append,silent.2,List.nil_append]

/-- The logs of a started group count its history. -/
theorem recentTotal_started (id : ActorId) {strategy : SupervisionStrategy} (parent : Option ActorId)
    (specs : List (ChildSpec × ActorId)) {r : UInt32} {w : Duration} (limited : limits strategy = some (r,w))
    {ops : List Op} (ordered : NonDecreasing ops) {now : Instant} (later : ∀ t ∈ ops.flatMap Op.readings, t ≤ now) :
    recentTotal ((started id strategy parent specs).run ops) now w =
      (recent now w (((history (started id strategy parent specs) ops).map (·.2)).map (·.2))).length ∧
    (((history (started id strategy parent specs) ops).map (·.2)).map (·.2)).Pairwise (· ≤ ·) := by
  obtain ⟨same,readings⟩ := started_quiet id strategy parent specs ops
  have inv := invariant_run id parent limited (specs.map (fun c => Op.start_child c.1 c.2) ++ ops)
    (by rw [NonDecreasing,readings]; exact ordered)
  have logged := logged_run id strategy parent (specs.map (fun c => Op.start_child c.1 c.2) ++ ops)
  rw [same] at inv logged
  rw [← readings] at later
  have total := recentTotal_eq inv logged later
  rw [run_append] at total
  exact ⟨total,by rw [List.map_map]; exact inv.sorted⟩

/-- The grants of the whole group are spaced exactly while every granted restart
    finds the group below its limit. -/
theorem spaced_history_iff {id : ActorId} {strategy : SupervisionStrategy} {parent : Option ActorId}
    {specs : List (ChildSpec × ActorId)} {r : UInt32} {w : Duration} (limited : limits strategy = some (r,w))
    (positive : r ≠ 0) (ops : List Op) (ordered : NonDecreasing ops) :
    Spaced w r.toNat ((history (started id strategy parent specs) ops).map (·.2)) ↔
      AllBelowGroupLimit (started id strategy parent specs) ops := by
  have limit : 0 < r.toNat := by
    rcases Nat.eq_zero_or_pos r.toNat with zero | more
    · exact absurd (UInt32.toNat_inj.mp zero) positive
    · exact more
  induction ops using List.reverseRecOn with
  | nil => simp [history,AllBelowGroupLimit,spaced_nil]
  | append_singleton ops op ih =>
    have earlier : Spaced w r.toNat ((history (started id strategy parent specs) ops).map (·.2)) ↔
        AllBelowGroupLimit (started id strategy parent specs) ops := ih (nonDecreasing_shorter ordered)
    rw [history_snoc,List.map_append,allBelow_snoc,← earlier]
    cases op with
    | handle_child_exit name reason now mint =>
      obtain ⟨before,-⟩ := nonDecreasing_exit ordered
      obtain ⟨total,sorted⟩ := recentTotal_started id parent specs limited
        (nonDecreasing_shorter ordered) before
      have strategies : limits ((started id strategy parent specs).run ops).strategy = some (r,w) := by
        rw [started,← run_append,run_strategy]
        cases parent <;> exact limited
      by_cases allowed : granted ((started id strategy parent specs).run ops) name reason now mint = true
      · simp only [charges,allowed,if_true,List.map_cons,List.map_nil]
        rw [spaced_append_iff limit _ sorted,← total]
        obtain ⟨r',w',reached,check⟩ := (granted_iff ..).mp allowed
        have own := decision_limits reached
        rw [strategies] at own
        cases own
        simp [BelowGroupLimit,reached,check]
      · have vacuous : BelowGroupLimit ((started id strategy parent specs).run ops)
            (.handle_child_exit name reason now mint) := by
          intro r' w' reached check
          exact absurd ((granted_iff ..).mpr ⟨r',w',reached,check⟩) allowed
        simp [charges,allowed,vacuous]
    | _ => simp [charges,BelowGroupLimit]

/-- Under a group strategy no child is moved to `Restarting` more than `r` times
    in less than `w` exactly when every granted restart finds fewer than `r`
    recent timestamps in the logs of all names together. -/
theorem group_restarts_limited_iff (id : ActorId) (strategy : SupervisionStrategy) (parent : Option ActorId)
    (specs : List (ChildSpec × ActorId)) (r : UInt32) (w : Duration)
    (group : strategy = .OneForAll r w ∨ strategy = .RestForOne r w) (positive : r ≠ 0) (ops : List Op)
    (keeps : ∀ op ∈ ops, keepsChildren op = true) (ordered : NonDecreasing ops) :
    (∀ key, Spaced w r.toNat (restartsOf (started id strategy parent specs) key ops)) ↔
      AllBelowGroupLimit (started id strategy parent specs) ops := by
  have same : (started id strategy parent specs).strategy = strategy := by
    rw [started,run_strategy]
    cases parent <;> rfl
  rw [spaced_group_iff (by rw [same]; exact group) ops keeps]
  exact spaced_history_iff (started_limits group) positive ops ordered

/-- Two children under `OneForAll` with limit 1, the second exit an hour after
    the first. -/
def spreadExits : List Op :=
  [.handle_child_exit "a" .Killed ⟨0,0⟩ (fun _ => ⟨3⟩),.handle_child_exit "b" .Killed ⟨3600,3600⟩ (fun _ => ⟨4⟩)]

/-- The same exits at one reading. -/
def crowdedExits : List Op :=
  [.handle_child_exit "a" .Killed ⟨0,0⟩ (fun _ => ⟨3⟩),.handle_child_exit "b" .Killed ⟨0,0⟩ (fun _ => ⟨4⟩)]

/-- Two children, started in order. -/
def pair : List (ChildSpec × ActorId) := [({ name := "a" },⟨1⟩),({ name := "b" },⟨2⟩)]

theorem group_restarts_limited_spread :
    restartsOf (started ⟨0⟩ (.OneForAll 1 60) none pair) "b" spreadExits = [(0,0),(3600,3600)] ∧
      Spaced 60 1 (restartsOf (started ⟨0⟩ (.OneForAll 1 60) none pair) "b" spreadExits) := by
  have below : AllBelowGroupLimit (started ⟨0⟩ (.OneForAll 1 60) none pair) spreadExits := by
    refine ⟨?_,?_,trivial⟩ <;> intro r w reached _
    · have same : some ((1 : UInt32),60) = some (r,w) := reached
      cases same
      decide
    · have same : some ((1 : UInt32),60) = some (r,w) := reached
      cases same
      decide
  exact ⟨by decide,(group_restarts_limited_iff ⟨0⟩ (.OneForAll 1 60) none pair 1 60 (.inl rfl) (by decide) spreadExits
    (by decide) (by unfold NonDecreasing; decide)).mpr below "b"⟩

/-- With limit 1 both exits are granted at one reading, and each moves both
    children. -/
theorem group_restarts_exceed_limit :
    NonDecreasing crowdedExits ∧ restartsOf (started ⟨0⟩ (.OneForAll 1 60) none pair) "a" crowdedExits = [(0,0),(0,0)] ∧
      ¬ ∀ key, Spaced 60 1 (restartsOf (started ⟨0⟩ (.OneForAll 1 60) none pair) key crowdedExits) := by
  have moved : restartsOf (started ⟨0⟩ (.OneForAll 1 60) none pair) "a" crowdedExits = [(0,0),(0,0)] := by decide
  refine ⟨by unfold NonDecreasing; decide,moved,?_⟩
  intro spaced
  have far := spaced "a" (0,0) [] (0,0) (by rw [moved]; exact List.Sublist.refl _) rfl
  exact absurd far (by decide)

end ActorKit.GroupRestarts
