import ActorKit.Sim.Audits
import ActorKit.Sim.Frame
import ActorKit.Sim.Notes

/-!
# The sizes of a simulated world

`config_mut` lets a caller write new values into `actors` and `messages` of a world
that is already built. Nothing reads `messages` again. The number of actors is read
for the target of each send event and by the restart audit of each round; where
both numbers give the same target and the same verdict, the rest of the run is the
same.
-/

namespace ActorKit.Sim.Shape
open ActorKit.sim ActorKit.supervisor
open ActorKit.Program ActorKit.Hidden ActorKit.Sim.Frame ActorKit.Sim.Notes ActorKit.Sim.Rounds

/-! ## Rewritten sizes -/

structure Sizes where
  actors : UInt64
  messages : UInt64

/-- What a caller of `config_mut` writes. -/
def Sizes.over (sizes : Sizes) (s : Sim) : Sim :=
  { s with config := { s.config with actors := sizes.actors, messages := sizes.messages } }

/-- Calls of `run` one after the other, with their outcomes. -/
def play : List Nat → SimM (List SimOutcome)
  | [] => pure []
  | steps :: runs => do
    let outcome ← run steps
    let outcomes ← play runs
    pure (outcome :: outcomes)

/-- What the rest of a run shows: the outcomes, none if it panics, the trace, the
    counters and whether the world is quiescent. -/
def shown : EStateM.Result Failure Sim (List SimOutcome) → Option (List SimOutcome) × List TraceOp × SimStats × Bool
  | .ok outcomes s => (some outcomes,s.trace,s.stats,s.is_quiescent)
  | .error _ s => (none,s.trace,s.stats,s.is_quiescent)

/-! ## Where the number of actors is read -/

/-- A state in which the number of actors is read. -/
inductive Read where
  | target (s : Sim)
  | audit (s : Sim)

def someReads : Nat → Sim → List Read
  | 0,_ => []
  | attempts + 1,s =>
    if s.mid_times.length ≤ s.next_mid then [] else .target s :: upon inject_one s (fun _ => someReads attempts)

/-- How many send events a tick has. -/
def draw_attempts (rate : F64) : SimM Nat := do
  let base := rate.as_u64
  let frac := rate.sub (.of_u64 base)
  let extra ← roll_if (F64.zero.lt frac) frac
  lift (checked (base + extra.toNat))

/-- The targets of a tick's workload. -/
def workloadReads (s : Sim) : List Read :=
  if s.mid_times.length ≤ s.next_mid then []
  else upon (draw_attempts (s.config.injection_rate.max .zero)) s (fun attempts => someReads (max attempts 1))

/-- The targets of a round and the audit at its end. -/
def roundReads (s : Sim) : List Read :=
  upon (lift (checked (s.tick + 1)) : SimM Nat) s (fun tick s =>
    workloadReads { s with tick } ++ upon (work s.config.processing_per_tick.toNat) { s with tick } (fun _ s' => [.audit s']))

/-- The restarts so far are within the budget of this many actors. -/
structure Covered (actors : UInt64) (s : Sim) : Prop where
  product : s.config.max_restarts.toNat * actors.toNat < 2 ^ 64
  total : ∀ root, s.tree.supervisors.lookup s.root = some root →
    root.count_children.total_restarts ≤ s.config.max_restarts.toNat * actors.toNat
  children : ∀ allowed, s.trace.foldlM s.audit_restart ∅ = .ok allowed → allowed.keys.length ≤ actors.toNat

/-- Two numbers of actors make no difference: the next draw falls on the same
    actor, or the restarts are within the budget of both or of neither. -/
def Agree (actors actors' : UInt64) : Read → Prop
  | .target s => (actors = 0 ↔ actors' = 0) ∧
      s.rng.next_u64.1.toNat * actors.toNat / 2 ^ 64 = s.rng.next_u64.1.toNat * actors'.toNat / 2 ^ 64
  | .audit s => 0 < s.config.max_restarts → (Covered actors s ↔ Covered actors' s)

/-! ## Two worlds -/

section
variable {left right : Sizes}

/-- Two worlds that differ in their sizes. -/
abbrev Twins (left right : Sizes) : Sim → Sim → Prop := Twin Sizes.over (fun z z' => z = left ∧ z' = right)

/-- A method that reads no size. -/
abbrev Sizeless (left right : Sizes) {α : Type} (p : SimM α) : Prop := Blind Sizes.over (fun z z' => z = left ∧ z' = right) p

theorem sizeless_of_leaves {α : Type} {p : SimM α} (leaves : ∀ fixed left right, Leaves fixed (Resized left right) p) :
    Sizeless left right p := by
  let still (sizes : Sizes) (served : Dict (BitVec 128) Nat) : Still := ⟨sizes.actors,sizes.messages,[],served⟩
  have family : ∀ i : Fixed × Dict (BitVec 128) Nat, Leaves i.1 (Resized (still left i.2) (still right i.2)) p :=
    fun i => leaves i.1 (still left i.2) (still right i.2)
  refine .of_family (fun s s' twin => ?_) (fun i s s' twin => ?_) family
  · obtain ⟨z,z',rest,⟨rfl,rfl⟩,rfl,rfl⟩ := twin
    exact ⟨(⟨rest.config,rest.tick⟩,rest.ready.last_served),⟨rest.tree,rest.root,rest.outside,still z rest.ready.last_served⟩,
      ⟨rest.tree,rest.root,rest.outside,still z' rest.ready.last_served⟩,rest,⟨rfl,rfl,rfl,rfl,rfl⟩,rfl,rfl⟩
  · obtain ⟨⟨tree,root,outside,front⟩,⟨tree',root',outside',front'⟩,rest,⟨rfl,rfl,rfl,rfl,rfl⟩,rfl,rfl⟩ := twin
    exact ⟨_,_,Veiled.over i.1 ⟨tree',root',outside',still left i.2⟩ rest,⟨rfl,rfl⟩,rfl,rfl⟩

theorem pick_next_sizeless : Sizeless left right pick_next := by
  refine .get_bind (fun _ _ _ _ => rfl) (fun s => .lift_bind _ (fun picked => ?_))
  exact .bind (.modify (fun _ _ => rfl)) (fun _ => .pure _)

theorem process_ready_sizeless (draws : Nat) : Sizeless left right (process_ready draws) :=
  process_ready_blind pick_next_sizeless (fun task => sizeless_of_leaves (fun _ _ _ => process_chosen_resized task)) draws

/-- Two results in twin worlds: the same value, or two panics. -/
def Level (left right : Sizes) {α : Type} : EStateM.Result Failure Sim α → EStateM.Result Failure Sim α → Prop
  | .ok a s,.ok a' s' => a = a' ∧ Twins left right s s'
  | .error _ s,.error _ s' => Twins left right s s'
  | _,_ => False

theorem Sizeless.level {α : Type} {p : SimM α} (sizeless : Sizeless left right p) {s s' : Sim} (twins : Twins left right s s') :
    Level left right (p s) (p s') := by
  have alike := sizeless s s' twins
  revert alike
  cases p s with
  | ok a t =>
    cases p s' with
    | ok a' t' => exact id
    | error e' t' => exact id
  | error e t =>
    cases p s' with
    | ok a' t' => exact id
    | error e' t' => exact And.right

theorem level_bind {α β : Type} {p p' : SimM α} {k k' : α → SimM β} {s s' : Sim} (first : Level left right (p s) (p' s'))
    (rest : ∀ a t t', p s = .ok a t → Twins left right t t' → Level left right (k a t) (k' a t')) :
    Level left right ((p >>= k) s) ((p' >>= k') s') := by
  rw [bind_run,bind_run]
  revert first
  cases result : p s with
  | ok a t =>
    cases p' s' with
    | ok a' t' =>
      rintro ⟨rfl,twins⟩
      exact rest a t t' result twins
    | error e' t' => exact False.elim
  | error e t =>
    cases p' s' with
    | ok a' t' => exact False.elim
    | error e' t' => exact id

/-! ## The workload -/

/-- The next target. -/
theorem target_level {s s' : Sim} (twins : Twins left right s s') (agree : Agree left.actors right.actors (.target s)) :
    Level left right (draw (·.below left.actors.toNat) s) (draw (·.below right.actors.toNat) s') := by
  obtain ⟨left,right,rest,⟨rfl,rfl⟩,rfl,rfl⟩ := twins
  obtain ⟨zero,same⟩ := agree
  by_cases none : left.actors = 0
  · have none' := zero.mp none
    rw [none,none']
    exact ⟨_,_,rest,⟨rfl,rfl⟩,rfl,rfl⟩
  · have some_ : left.actors.toNat ≠ 0 := fun equal => none (UInt64.toNat_inj.mp equal)
    have some' : right.actors.toNat ≠ 0 := fun equal => none (zero.mpr (UInt64.toNat_inj.mp equal))
    have drawn : ∀ (n : Nat) (s : Sim), n ≠ 0 → draw (·.below n) s =
        .ok (s.rng.next_u64.1.toNat * n / 2 ^ 64) { s with rng := s.rng.next_u64.2 } := by
      intro n s positive
      have below : s.rng.below n = .ok (s.rng.next_u64.1.toNat * n / 2 ^ 64,s.rng.next_u64.2) := if_neg positive
      show (lift (s.rng.below n) >>= _ : SimM Nat) s = _
      rw [below]
      rfl
    rw [drawn _ _ some_,drawn _ _ some']
    exact ⟨same,_,_,{ rest with rng := rest.rng.next_u64.2 },⟨rfl,rfl⟩,rfl,rfl⟩

theorem inject_one_level {s s' : Sim} (twins : Twins left right s s') (agree : Agree left.actors right.actors (.target s)) :
    Level left right (inject_one s) (inject_one s') := by
  have first := target_level twins agree
  rw [inject_one_eq]
  have same : inject_at s = inject_at s' := by
    obtain ⟨_,_,rest,-,rfl,rfl⟩ := twins
    rfl
  have sizes : s.config.actors = left.actors ∧ s'.config.actors = right.actors := by
    obtain ⟨_,_,rest,⟨rfl,rfl⟩,rfl,rfl⟩ := twins
    exact ⟨rfl,rfl⟩
  show Level left right ((draw (·.below s.config.actors.toNat) >>= fun target => inject_at s target) s)
    ((draw (·.below s'.config.actors.toNat) >>= fun target => inject_at s' target) s')
  rw [sizes.1,sizes.2,same]
  refine level_bind first (fun target t t' _ twins => Sizeless.level ?_ twins)
  exact sizeless_of_leaves (fun _ _ _ => inject_at_leaves _ _)

theorem used_up {s s' : Sim} (twins : Twins left right s s') :
    s'.mid_times = s.mid_times ∧ s'.next_mid = s.next_mid ∧ s'.is_quiescent = s.is_quiescent := by
  obtain ⟨_,_,rest,-,rfl,rfl⟩ := twins
  exact ⟨rfl,rfl,rfl⟩

theorem inject_some_level (attempts : Nat) {s s' : Sim} (twins : Twins left right s s')
    (agree : ∀ read ∈ someReads attempts s, Agree left.actors right.actors read) :
    Level left right (inject_some attempts s) (inject_some attempts s') := by
  induction attempts generalizing s s' with
  | zero => exact ⟨rfl,twins⟩
  | succ attempts ih =>
    obtain ⟨times,next,-⟩ := used_up twins
    show Level left right
      ((if s.mid_times.length ≤ s.next_mid then pure () else inject_one >>= fun _ => inject_some attempts : SimM Unit) s)
      ((if s'.mid_times.length ≤ s'.next_mid then pure () else inject_one >>= fun _ => inject_some attempts : SimM Unit) s')
    rw [someReads] at agree
    rw [times,next]
    by_cases done : s.mid_times.length ≤ s.next_mid
    · rw [if_pos done]
      exact ⟨rfl,twins⟩
    · rw [if_neg done] at agree ⊢
      have target := agree _ List.mem_cons_self
      refine level_bind (inject_one_level twins target) (fun _ t t' result twins => ih twins (fun read member => ?_))
      refine agree read (List.mem_cons_of_mem _ ?_)
      rw [upon,result]
      exact member

theorem inject_workload_run (s : Sim) : inject_workload s =
    if s.mid_times.length ≤ s.next_mid then .ok () s
    else (draw_attempts (s.config.injection_rate.max .zero) >>= fun attempts => inject_some (max attempts 1)) s := by
  unfold draw_attempts
  simp only [bind_assoc]
  show (if s.mid_times.length ≤ s.next_mid then pure () else _ : SimM Unit) s = _
  by_cases done : s.mid_times.length ≤ s.next_mid
  · rw [if_pos done,if_pos done]
    rfl
  · rw [if_neg done,if_neg done]

theorem draw_attempts_sizeless (rate : F64) : Sizeless left right (draw_attempts rate) :=
  .bind (sizeless_of_leaves (fun _ _ _ => roll_if_leaves _ _)) (fun _ => .lift _)

theorem inject_workload_level {s s' : Sim} (twins : Twins left right s s')
    (agree : ∀ read ∈ workloadReads s, Agree left.actors right.actors read) :
    Level left right (inject_workload s) (inject_workload s') := by
  obtain ⟨times,next,-⟩ := used_up twins
  have rate : s'.config.injection_rate = s.config.injection_rate := by
    obtain ⟨_,_,rest,-,rfl,rfl⟩ := twins
    rfl
  rw [inject_workload_run,inject_workload_run,times,next,rate]
  rw [workloadReads] at agree
  by_cases done : s.mid_times.length ≤ s.next_mid
  · rw [if_pos done,if_pos done]
    exact ⟨rfl,twins⟩
  · rw [if_neg done] at agree ⊢
    rw [if_neg done]
    refine level_bind ((draw_attempts_sizeless _).level twins) (fun attempts t t' result twins => ?_)
    refine inject_some_level _ twins (fun read member => agree read ?_)
    rw [upon,result]
    exact member

/-! ## The audit -/

theorem holds_or_ok {condition : Prop} [Decidable condition] {failure : Failure} :
    holds_or condition failure = .ok () ↔ condition := by
  unfold holds_or
  by_cases holds : condition <;> simp [holds]

theorem audit_restarts_ok (s : Sim) : s.audit_restarts = .ok () ↔
    (∃ root, s.tree.supervisors.lookup s.root = some root) ∧ (∃ allowed, s.trace.foldlM s.audit_restart ∅ = .ok allowed) ∧
      Covered s.config.actors s := by
  unfold Sim.audit_restarts
  constructor
  · intro passed
    obtain ⟨root,exists_,passed⟩ := bind_ok passed
    obtain ⟨budget,product,passed⟩ := bind_ok passed
    obtain ⟨_,total,passed⟩ := bind_ok passed
    obtain ⟨allowed,folded,children⟩ := bind_ok passed
    rw [holds_or_ok] at total children
    have known : s.tree.supervisors.lookup s.root = some root := by
      cases found : s.tree.supervisors.lookup s.root with
      | none =>
        rw [found] at exists_
        cases exists_
      | some root' =>
        rw [found] at exists_
        cases exists_
        rfl
    have fits : s.config.max_restarts.toNat * s.config.actors.toNat < 2 ^ 64 := by
      by_contra large
      rw [checked,if_neg large] at product
      cases product
    rw [checked_ok product] at total
    refine ⟨⟨root,known⟩,⟨allowed,folded⟩,fits,fun root' known' => ?_,fun allowed' folded' => ?_⟩
    · rw [known] at known'
      cases known'
      exact total
    · rw [folded] at folded'
      cases folded'
      exact children
  · rintro ⟨⟨root,known⟩,⟨allowed,folded⟩,covered⟩
    have product : checked (s.config.max_restarts.toNat * s.config.actors.toNat) =
        .ok (s.config.max_restarts.toNat * s.config.actors.toNat) := if_pos covered.product
    rw [known,product,folded]
    show (holds_or (root.count_children.total_restarts ≤ s.config.max_restarts.toNat * s.config.actors.toNat) _ >>= fun _ =>
      holds_or (allowed.keys.length ≤ s.config.actors.toNat) _) = _
    rw [holds_or_ok.mpr (covered.total root known)]
    exact holds_or_ok.mpr (covered.children allowed folded)

theorem audit_counts_ok (s : Sim) : s.audit_counts = .ok () ↔
    s.ledger.zipIdx.forM (fun (led,ord) => s.audit_actor led ord) = .ok () ∧
      (0 < s.config.max_restarts → s.audit_restarts = .ok ()) := by
  have rest : (if 0 < s.config.max_restarts then s.audit_restarts else .ok ()) = .ok () ↔
      (0 < s.config.max_restarts → s.audit_restarts = .ok ()) := by
    by_cases audited : 0 < s.config.max_restarts <;> simp [audited]
  unfold Sim.audit_counts
  constructor
  · intro passed
    obtain ⟨_,actors,restarts⟩ := bind_ok passed
    exact ⟨actors,rest.mp restarts⟩
  · rintro ⟨actors,restarts⟩
    rw [actors]
    exact rest.mpr restarts

theorem covered_over (sizes : Sizes) (actors : UInt64) (s : Sim) : Covered actors (sizes.over s) ↔ Covered actors s :=
  ⟨fun covered => ⟨covered.product,covered.total,covered.children⟩,
    fun covered => ⟨covered.product,covered.total,covered.children⟩⟩

/-- The audits fail in both worlds or in neither. -/
theorem audit_level {s s' : Sim} (twins : Twins left right s s') (agree : Agree left.actors right.actors (.audit s)) :
    Level left right (audit s) (audit s') := by
  have verdict : s.audit_counts = .ok () ↔ s'.audit_counts = .ok () := by
    obtain ⟨left,right,rest,⟨rfl,rfl⟩,rfl,rfl⟩ := twins
    rw [audit_counts_ok,audit_counts_ok]
    refine and_congr Iff.rfl (imp_congr_right (fun audited => ?_))
    rw [audit_restarts_ok,audit_restarts_ok]
    have budgets := agree audited
    rw [covered_over,covered_over] at budgets
    refine and_congr Iff.rfl (and_congr Iff.rfl ?_)
    rw [covered_over,covered_over]
    exact budgets
  show Level left right ((lift s.audit_counts : SimM Unit) s) ((lift s'.audit_counts : SimM Unit) s')
  cases passed : s.audit_counts with
  | ok _ =>
    rw [verdict.mp passed]
    exact ⟨rfl,twins⟩
  | error e =>
    cases passed' : s'.audit_counts with
    | ok _ =>
      rw [verdict.mpr passed'] at passed
      cases passed
    | error e' => exact twins

/-! ## Rounds -/

theorem round_level {s s' : Sim} (twins : Twins left right s s')
    (agree : ∀ read ∈ roundReads s, Agree left.actors right.actors read) :
    Level left right (sim.round s) (sim.round s') := by
  have same : s'.tick = s.tick ∧ s'.config.processing_per_tick = s.config.processing_per_tick := by
    obtain ⟨_,_,rest,-,rfl,rfl⟩ := twins
    exact ⟨rfl,rfl⟩
  cases counted : checked (s.tick + 1) with
  | error e =>
    rw [round_overflow counted,round_overflow (by rw [same.1]; exact counted)]
    exact twins
  | ok tick =>
    have ticked : Twins left right { s with tick } { s' with tick } := by
      obtain ⟨_,_,rest,⟨rfl,rfl⟩,rfl,rfl⟩ := twins
      exact ⟨_,_,{ rest with tick },⟨rfl,rfl⟩,rfl,rfl⟩
    have reads : roundReads s = workloadReads { s with tick } ++
        upon (work s.config.processing_per_tick.toNat) { s with tick } (fun _ s' => [.audit s']) := by
      unfold roundReads
      rw [counted]
      rfl
    rw [reads] at agree
    rw [round_run counted,round_run (by rw [same.1]; exact counted),same.2]
    have gathers : Level left right (gather { s with tick }) (gather { s' with tick }) := by
      refine level_bind (inject_workload_level ticked (fun read member => agree read (List.mem_append_left _ member))) ?_
      refine fun _ t t' _ twins => Sizeless.level (.bind ?_ (fun _ => ?_)) twins
      · exact sizeless_of_leaves (fun _ _ _ => deliver_due_leaves)
      · exact sizeless_of_leaves (fun _ _ _ => retry_blocked_leaves)
    have works : Level left right (work s.config.processing_per_tick.toNat { s with tick })
        (work s.config.processing_per_tick.toNat { s' with tick }) :=
      level_bind gathers (fun _ t t' _ twins => (process_ready_sizeless _).level twins)
    refine level_bind works (fun _ t t' result twins => audit_level twins (agree _ (List.mem_append_right _ ?_)))
    rw [upon,result]
    exact List.mem_singleton_self _

theorem rounds_level (steps executed : Nat) {s s' : Sim} (twins : Twins left right s s')
    (agree : ∀ read ∈ roundsNotes roundReads steps s, Agree left.actors right.actors read) :
    Level left right (rounds steps executed s) (rounds steps executed s') := by
  induction steps generalizing executed s s' with
  | zero => exact ⟨rfl,twins⟩
  | succ steps ih =>
    obtain ⟨-,-,same⟩ := used_up twins
    rw [roundsNotes] at agree
    by_cases quiescent : s.is_quiescent = true
    · rw [rounds_settled quiescent,rounds_settled (same.trans quiescent)]
      exact ⟨rfl,twins⟩
    · have busy : s.is_quiescent = false := by simpa using quiescent
      rw [if_neg quiescent] at agree
      rw [rounds_busy busy,rounds_busy (same.trans busy)]
      refine level_bind (round_level twins (fun read member => agree read (List.mem_append_left _ member))) ?_
      refine fun _ t t' result twins => ih _ twins (fun read member => agree read (List.mem_append_right _ ?_))
      rw [upon,result]
      exact member

theorem run_level (steps : Nat) {s s' : Sim} (twins : Twins left right s s')
    (agree : ∀ read ∈ roundsNotes roundReads steps s, Agree left.actors right.actors read) :
    Level left right (run steps s) (run steps s') := by
  refine level_bind (rounds_level steps 0 twins agree) (fun executed t t' _ twins => Sizeless.level ?_ twins)
  refine .get_bind (fun _ _ _ _ => rfl) (fun s => ?_)
  cases s.is_quiescent
  · exact .pure _
  · exact .lift_bind _ (fun _ => .pure _)

theorem play_level (runs : List Nat) {s s' : Sim} (twins : Twins left right s s')
    (agree : ∀ read ∈ runsNotes roundReads runs s, Agree left.actors right.actors read) :
    Level left right (play runs s) (play runs s') := by
  induction runs generalizing s s' with
  | nil => exact ⟨rfl,twins⟩
  | cons steps runs ih =>
    rw [runsNotes] at agree
    refine level_bind (run_level steps twins (fun read member => agree read (List.mem_append_left _ member))) ?_
    intro outcome t t' result twins
    refine level_bind (ih twins (fun read member => agree read (List.mem_append_right _ ?_))) ?_
    · rw [upon,result]
      exact member
    · exact fun outcomes t t' _ twins => ⟨rfl,twins⟩

/-- Nothing of what a run shows is a size. -/
theorem shown_level {result result' : EStateM.Result Failure Sim (List SimOutcome)} (level : Level left right result result') :
    shown result' = shown result := by
  have visible : ∀ {t t' : Sim}, Twins left right t t' →
      t'.trace = t.trace ∧ t'.stats = t.stats ∧ t'.is_quiescent = t.is_quiescent := by
    rintro _ _ ⟨_,_,rest,-,rfl,rfl⟩
    exact ⟨rfl,rfl,rfl⟩
  cases result with
  | ok outcomes t =>
    cases result' with
    | ok outcomes' t' =>
      obtain ⟨rfl,twins⟩ := level
      obtain ⟨trace,stats,quiescent⟩ := visible twins
      simp only [shown,trace,stats,quiescent]
    | error e' t' => exact False.elim level
  | error e t =>
    cases result' with
    | ok outcomes' t' => exact False.elim level
    | error e' t' =>
      obtain ⟨trace,stats,quiescent⟩ := visible level
      simp only [shown,trace,stats,quiescent]

end

/-! ## The rest of a run -/

theorem twins_over (s : Sim) (sizes : Sizes) : Twins ⟨s.config.actors,s.config.messages⟩ sizes s (sizes.over s) :=
  ⟨_,_,s,⟨rfl,rfl⟩,rfl,rfl⟩

/-- Where the old and the new number of actors agree whenever one is read, the rest
    of the run is the same, whatever is written into `messages`. -/
theorem rest_unchanged (s : Sim) (sizes : Sizes) (runs : List Nat)
    (agree : ∀ read ∈ runsNotes roundReads runs s, Agree s.config.actors sizes.actors read) :
    shown (play runs (sizes.over s)) = shown (play runs s) :=
  shown_level (play_level runs (twins_over s sizes) agree)

/-- What is written into `messages` has no effect. -/
theorem messages_unread (s : Sim) (messages : UInt64) (runs : List Nat) :
    shown (play runs (Sizes.over ⟨s.config.actors,messages⟩ s)) = shown (play runs s) := by
  refine shown_level (play_level runs (twins_over s ⟨s.config.actors,messages⟩) (fun read _ => ?_))
  cases read with
  | target s => exact ⟨Iff.rfl,rfl⟩
  | audit s => exact fun _ => Iff.rfl

/-- A world of two actors after one round. -/
def midway : Sim := reached (simulate 0 { actors := 2, messages := 3, injection_rate := .finite 1 } (fun _ => 0) Audits.still [1])

/-- All targets are the first actor, and no restart counts against either budget. -/
def evident : Read → Bool
  | .target s => s.rng.next_u64.1 == 0
  | .audit s => (Sizes.over ⟨2,0⟩ s).audit_restarts.isOk && (Sizes.over ⟨5,0⟩ s).audit_restarts.isOk

theorem agree_of_evident {read : Read} (clear : evident read = true) : Agree 2 5 read := by
  cases read with
  | target s =>
    have zero : s.rng.next_u64.1 = 0 := by simpa [evident] using clear
    refine ⟨by decide,?_⟩
    rw [zero]
    rfl
  | audit s =>
    have covered : ∀ actors : UInt64, (Sizes.over ⟨actors,0⟩ s).audit_restarts.isOk = true → Covered actors s := by
      intro actors passed
      cases verdict : (Sizes.over ⟨actors,0⟩ s).audit_restarts with
      | ok _ => exact (covered_over _ _ s).mp ((audit_restarts_ok _).mp verdict).2.2
      | error e =>
        rw [verdict] at passed
        cases passed
    obtain ⟨two,five⟩ := Bool.and_eq_true_iff.mp clear
    exact fun _ => iff_of_true (covered 2 two) (covered 5 five)

/-- Five actors instead of two, and other messages. -/
theorem rest_unchanged_midway : shown (play [5] (Sizes.over ⟨5,9⟩ midway)) = shown (play [5] midway) := by
  have two : midway.config.actors = 2 := by decide +kernel
  have clear : (runsNotes roundReads [5] midway).all evident = true := by decide +kernel
  refine rest_unchanged midway ⟨5,9⟩ [5] (fun read member => ?_)
  rw [two]
  exact agree_of_evident (List.all_eq_true.mp clear read member)

/-- The world was built and ran, and goes on for a round only if nothing is written. -/
def breaks (sizes : Sizes) : EStateM.Result Failure Sim Unit → Bool
  | .ok _ s => (shown (play [1] s)).1.isSome && (shown (play [1] (sizes.over s))).1.isNone
  | .error _ _ => false

/-- After one round a second actor is written into the configuration; the next
    message is for it, and the round panics. -/
theorem rewritten_size_panics : ¬ ∀ seed config draws outside before s,
    simulate seed config draws outside before = .ok () s →
      ∀ sizes runs, shown (play runs (Sizes.over sizes s)) = shown (play runs s) := by
  intro always
  have same := always 0 { actors := 1, messages := 2, injection_rate := .finite 1 } (fun _ => 0xffffffffffffffff) Audits.still [1]
  have ran : breaks ⟨2,2⟩ (simulate 0 { actors := 1, messages := 2, injection_rate := .finite 1 }
      (fun _ => 0xffffffffffffffff) Audits.still [1]) = true := by decide +kernel
  revert ran same
  cases simulate 0 { actors := 1, messages := 2, injection_rate := .finite 1 } (fun _ => 0xffffffffffffffff) Audits.still [1] with
  | error failure s => exact fun _ ran => by cases ran
  | ok a s =>
    intro same ran
    obtain ⟨goes,panics⟩ := Bool.and_eq_true_iff.mp ran
    rw [same s rfl ⟨2,2⟩ [1]] at panics
    cases outcome : (shown (play [1] s)).1 with
    | none => rw [outcome] at goes; cases goes
    | some outcomes => rw [outcome] at panics; cases panics

end ActorKit.Sim.Shape
