import ActorKit.GroupRestarts

/-!
# The blast radius of an exit

A child receives its place in the start order once. While the counter has not
run out, the places say in which order the children present were last started,
so the comparison of places in `RestForOne` spares exactly the children that
were started before the one that exited.
-/

namespace ActorKit.BlastRadius
open ActorKit.supervisor ActorKit.Exits ActorKit.RestartLog ActorKit.GroupRestarts

/-- The name an operation starts a child under; a start under a name in use fails. -/
def startedBy (s : Supervisor) : Op → List String
  | .start_child spec _ => if (s.children.lookup spec.name).isSome then [] else [spec.name]
  | _ => []

/-- The names of the children a run starts, oldest first. -/
def starts (s : Supervisor) : List Op → List String
  | [] => []
  | op :: ops => startedBy s op ++ starts (s.apply op) ops

/-- How many children were started since the latest start of a name. -/
def startsSince (names : List String) (key : String) : Nat := names.reverse.idxOf key

/-- The latest start of `a` came before the latest start of `b`. -/
def StartedBefore (names : List String) (a b : String) : Prop := startsSince names b < startsSince names a

/-- The ids an operation generates. -/
def mintedBy (s : Supervisor) : Op → List ActorId
  | .start_child spec id => if (s.children.lookup spec.name).isSome then [] else [id]
  | .handle_child_exit name reason now mint =>
    if granted s name reason now mint then
      (s.children.items.filter (fun e => moves s name e.1 e.2)).map (fun e => mint e.1)
    else []
  | _ => []

/-- The ids a run generates, in order. -/
def generated (s : Supervisor) : List Op → List ActorId
  | [] => []
  | op :: ops => mintedBy s op ++ generated (s.apply op) ops

/-- Whether an operation is a call of `start_child`. -/
def isStart : Op → Bool
  | .start_child .. => true
  | _ => false

/-- A caller that takes a child by `get_child_mut` leaves its id and its place
    in the start order alone. -/
def KeepsIdentity : Op → Prop
  | .get_child_mut _ write => ∀ child, (write child).id = child.id ∧ (write child).start_order = child.start_order
  | _ => True

/-- The exit reaches a restart decision and the decision allows the restart. -/
def Grants (s : Supervisor) (name : String) (reason : ExitReason) (now : Readings) : Prop :=
  ∃ r w, decision s name reason = some (r,w) ∧ s.check_restart_allowed name r w now.check = true

/-- A child is restarting under the id generated for it, which no child had
    before. -/
def Renewed (s s' : Supervisor) (mint : String → ActorId) (key : String) (child : SupervisedChild) : Prop :=
  (∃ attempt, s'.children.lookup key = some { child with id := mint key, state := .Restarting attempt }) ∧
    ∀ other old, s.children.lookup other = some old → old.id ≠ mint key

/-- What one exit may change. -/
structure Contained (names : List String) (s : Supervisor) (name : String) (reason : ExitReason) (now : Readings)
    (mint : String → ActorId) (s' : Supervisor) (result : Except Error Unit) : Prop where
  unknown : s.children.lookup name = none → s' = s ∧ result = .error (SupervisorError.ChildNotFound name).into
  refused : ¬ Grants s name reason now → ∃ text, s' = stopped s name text
  counted : Grants s name reason now → s'.total_restarts = saturating_succ 64 s.total_restarts
  restarted : Grants s name reason now → ∃ child, s.children.lookup name = some child ∧ Renewed s s' mint name child
  oneForOne : ∀ r w, s.strategy = .OneForOne r w → ∀ key, key ≠ name → s'.children.lookup key = s.children.lookup key
  earlier : ∀ r w, s.strategy = .RestForOne r w → ∀ key, StartedBefore names key name →
    s'.children.lookup key = s.children.lookup key
  later : ∀ r w, s.strategy = .RestForOne r w → Grants s name reason now → ∀ key child,
    s.children.lookup key = some child → StartedBefore names name key → child.spec.restart_policy ≠ .Temporary →
    child.state.is_active = true → Renewed s s' mint key child
  oneForAll : ∀ r w, s.strategy = .OneForAll r w → Grants s name reason now → ∀ key child,
    s.children.lookup key = some child → child.spec.restart_policy ≠ .Temporary → child.state.is_active = true →
    Renewed s s' mint key child
  kept : ∀ key, (s'.children.lookup key).map (fun child => (child.spec,child.start_order)) =
    (s.children.lookup key).map (fun child => (child.spec,child.start_order))

/-! ## What a step does to the identity of a child -/

theorem starts_append (s : Supervisor) (ops more : List Op) :
    starts s (ops ++ more) = starts s ops ++ starts (s.run ops) more := by
  induction ops generalizing s with
  | nil => rfl
  | cons op ops ih => simp [starts,ih,Supervisor.run]

theorem generated_append (s : Supervisor) (ops more : List Op) :
    generated s (ops ++ more) = generated s ops ++ generated (s.run ops) more := by
  induction ops generalizing s with
  | nil => rfl
  | cons op ops ih => simp [generated,ih,Supervisor.run]

/-- Every child present afterwards was present before, in its place and under
    its id or a generated one. -/
def Survives (s s' : Supervisor) (ids : List ActorId) : Prop :=
  ∀ key child', s'.children.lookup key = some child' → ∃ child, s.children.lookup key = some child ∧
    child'.start_order = child.start_order ∧ (child'.id = child.id ∨ child'.id ∈ ids)

theorem survives_self (s : Supervisor) (ids : List ActorId) : Survives s s ids :=
  fun _ child found => ⟨child,found,rfl,.inl rfl⟩

theorem survives_write (s : Supervisor) (ids : List ActorId) (name : String)
    {write : SupervisedChild → SupervisedChild}
    (keeps : ∀ child, (write child).id = child.id ∧ (write child).start_order = child.start_order) :
    Survives s { s with children := s.children.modify name write } ids := by
  intro key child' found
  rw [Dict.lookup_modify] at found
  split at found
  · obtain ⟨child,old,rfl⟩ := Option.map_eq_some_iff.mp found
    exact ⟨child,old,(keeps child).2,.inl (keeps child).1⟩
  · exact ⟨child',found,rfl,.inl rfl⟩

theorem survives_exit {s after : Supervisor} {name : String} {reason : ExitReason} {now : Readings}
    {mint : String → ActorId} (outcome : Outcome s name reason now mint after) :
    Survives s after (mintedBy s (.handle_child_exit name reason now mint)) := by
  cases outcome with
  | undecided | refused => exact survives_write s _ name (fun _ => ⟨rfl,rfl⟩)
  | granted r w reached allowed =>
    intro key child' found
    rw [lookup_restarted] at found
    obtain ⟨child,old,rfl⟩ := Option.map_eq_some_iff.mp found
    refine ⟨child,old,?_⟩
    by_cases moved : moves s name key child = true
    · simp only [moved,if_true,true_and]
      refine .inr ?_
      simp only [mintedBy,(granted_iff s name reason now mint).mpr ⟨r,w,reached,allowed⟩,if_true]
      exact List.mem_map.mpr ⟨(key,child),List.mem_filter.mpr ⟨(Dict.mem_items ..).mpr old,moved⟩,rfl⟩
    · simp [moved]

theorem target_quiet {s : Supervisor} {op : Op} {name : String} (aims : target op = some name) :
    startedBy s op = [] := by
  cases op with
  | start_child => cases aims
  | _ => rfl

/-- A step starts one child, or starts none and every child present after it
    survives it. -/
theorem apply_identity {s : Supervisor} {op : Op} (keeps : KeepsIdentity op) :
    (∃ spec id, op = .start_child spec id ∧ s.children.lookup spec.name = none) ∨
    (startedBy s op = [] ∧ (s.apply op).next_start_order = s.next_start_order ∧
      Survives s (s.apply op) (mintedBy s op)) := by
  have effect := apply_effect s op
  generalize s.apply op = after at effect ⊢
  cases effect with
  | started spec id free => exact .inl ⟨spec,id,rfl,free⟩
  | taken spec id present => exact .inr ⟨by simp [startedBy,present],rfl,survives_self s _⟩
  | escalation => exact .inr ⟨rfl,rfl,survives_self s _⟩
  | idle _ name aims => exact .inr ⟨target_quiet aims,rfl,survives_self s _⟩
  | state _ name aims => exact .inr ⟨target_quiet aims,rfl,survives_write s _ name (fun _ => ⟨rfl,rfl⟩)⟩
  | byHand name write => exact .inr ⟨rfl,rfl,survives_write s _ name keeps⟩
  | removed name =>
    refine .inr ⟨rfl,rfl,?_⟩
    intro key child' found
    rw [Dict.lookup_erase_ite] at found
    split at found
    · cases found
    · exact ⟨child',found,rfl,.inl rfl⟩
  | exit name reason now mint _ outcome =>
    refine .inr ⟨rfl,?_,survives_exit outcome⟩
    cases outcome <;> rfl

/-! ## The order of starts over a run -/

theorem startsSince_snoc (names : List String) (name key : String) :
    startsSince (names ++ [name]) key = if key = name then 0 else startsSince names key + 1 := by
  rw [startsSince,List.reverse_append]
  by_cases own : key = name
  · simp [own]
  · rw [if_neg own]
    exact List.idxOf_cons_ne _ (Ne.symm own)

/-- The places of the children present are the positions of their latest starts,
    and every id was generated. -/
structure Ordered (s : Supervisor) (names : List String) (ids : List ActorId) : Prop where
  next : s.next_start_order = names.length
  position : ∀ key child, s.children.lookup key = some child →
    child.start_order + 1 + startsSince names key = names.length
  known : ∀ key child, s.children.lookup key = some child → child.id ∈ ids

theorem ordered_step {s : Supervisor} {names : List String} {ids : List ActorId} (ordered : Ordered s names ids)
    {op : Op} (keeps : KeepsIdentity op) (few : names.length + 1 < 2 ^ 32) :
    Ordered (s.apply op) (names ++ startedBy s op) (ids ++ mintedBy s op) := by
  rcases apply_identity (s := s) keeps with ⟨spec,id,rfl,free⟩ | ⟨none,next,survives⟩
  · have after : s.apply (.start_child spec id) = { s with
        next_start_order := saturating_succ 32 s.next_start_order
        children := s.children.insert spec.name
          { id, spec, state := .Running, start_order := s.next_start_order } } := by
      simp [Supervisor.apply,Supervisor.start_child,free]
    have named : startedBy s (.start_child spec id) = [spec.name] := by simp [startedBy,free]
    have minted : mintedBy s (.start_child spec id) = [id] := by simp [mintedBy,free]
    have next := ordered.next
    rw [after,named,minted]
    refine ⟨?_,?_,?_⟩
    · simp only [List.length_append,List.length_singleton,saturating_succ]
      omega
    · intro key child found
      rw [Dict.lookup_insert_ite] at found
      rw [startsSince_snoc,List.length_append,List.length_singleton]
      split at found
      · next own =>
        cases found
        rw [if_pos own]
        dsimp only
        omega
      · next other =>
        have := ordered.position key child found
        rw [if_neg other]
        omega
    · intro key child found
      rw [Dict.lookup_insert_ite] at found
      split at found
      · cases found
        simp
      · exact List.mem_append_left _ (ordered.known key child found)
  · rw [none,List.append_nil]
    refine ⟨next.trans ordered.next,?_,?_⟩
    · intro key child' found
      obtain ⟨child,old,same,-⟩ := survives key child' found
      rw [same]
      exact ordered.position key child old
    · intro key child' found
      obtain ⟨child,old,-,kept | minted⟩ := survives key child' found
      · rw [kept]
        exact List.mem_append_left _ (ordered.known key child old)
      · exact List.mem_append_right _ minted

/-- A run starts at most as many children as it calls `start_child`. -/
theorem starts_length_le (s : Supervisor) (ops : List Op) : (starts s ops).length ≤ ops.countP isStart := by
  induction ops generalizing s with
  | nil => exact Nat.le_refl _
  | cons op ops ih =>
    have rest := ih (s.apply op)
    have one : (startedBy s op).length ≤ if isStart op then 1 else 0 := by
      cases op with
      | start_child spec id =>
        simp only [startedBy]
        split <;> simp [isStart]
      | _ => exact Nat.zero_le _
    rw [starts,List.length_append,List.countP_cons]
    omega

theorem ordered_run (id : ActorId) (strategy : SupervisionStrategy) (parent : Option ActorId) (ops : List Op)
    (few : ops.countP isStart < 2 ^ 32 - 1) (keeps : ∀ op ∈ ops, KeepsIdentity op) :
    Ordered ((created id strategy parent).run ops) (starts (created id strategy parent) ops)
      (generated (created id strategy parent) ops) := by
  induction ops using List.reverseRecOn with
  | nil =>
    have empty : ∀ key, (created id strategy parent).children.lookup key = none := by
      intro key; cases parent <;> rfl
    refine ⟨by cases parent <;> rfl,?_,?_⟩
    · intro key child found
      rw [Supervisor.run,List.foldl_nil,empty] at found
      cases found
    · intro key child found
      rw [Supervisor.run,List.foldl_nil,empty] at found
      cases found
  | append_singleton ops op ih =>
    rw [List.countP_append] at few
    have short := starts_length_le (created id strategy parent) ops
    have before := ih (by omega) (fun op member => keeps op (List.mem_append_left _ member))
    rw [run_append,starts_append,generated_append]
    simp only [starts,generated,List.append_nil]
    exact ordered_step before (keeps op (by simp)) (by omega)

/-! ## One exit -/

theorem exit_refused {s : Supervisor} {name : String} {reason : ExitReason} {now : Readings} (mint : String → ActorId)
    (refused : ¬ Grants s name reason now) : ∃ text, (s.handle_child_exit name reason now mint).1 = stopped s name text :=
  exit_stops (fun allowed => refused ((granted_iff ..).mp allowed))

theorem exit_granted {s : Supervisor} {name : String} {reason : ExitReason} {now : Readings} (mint : String → ActorId)
    (grants : Grants s name reason now) :
    (s.handle_child_exit name reason now mint).1 = restarted s name now.record mint := by
  obtain ⟨r,w,reached,allowed⟩ := grants
  exact exit_restarts mint reached allowed

theorem Grants.exited {s : Supervisor} {name : String} {reason : ExitReason} {now : Readings}
    (grants : Grants s name reason now) :
    ∃ child, s.children.lookup name = some child ∧ moves s name name child = true := by
  obtain ⟨r,w,reached,-⟩ := grants
  obtain ⟨child,found⟩ := decision_child reached
  exact ⟨child,found,moves_self found (by rw [decision_limits reached]; simp)⟩

/-- A child that is not moved and is not the one that exited keeps its record. -/
theorem exit_spares {s : Supervisor} {name key : String} (reason : ExitReason) (now : Readings) (mint : String → ActorId)
    (other : key ≠ name) (unmoved : ∀ child, s.children.lookup key = some child → moves s name key child = false) :
    (s.handle_child_exit name reason now mint).1.children.lookup key = s.children.lookup key := by
  by_cases grants : Grants s name reason now
  · rw [exit_granted mint grants,lookup_restarted]
    cases found : s.children.lookup key with
    | none => rfl
    | some child => simp [unmoved child found]
  · obtain ⟨text,after⟩ := exit_refused mint grants
    rw [after,lookup_stopped,if_neg other]

/-- A moved child restarts under the id generated for it. -/
theorem exit_renews {s : Supervisor} {names : List String} {ids : List ActorId} (ordered : Ordered s names ids)
    {name : String} {reason : ExitReason} {now : Readings} {mint : String → ActorId}
    (distinct : (ids ++ mintedBy s (.handle_child_exit name reason now mint)).Nodup)
    (grants : Grants s name reason now) {key : String} {child : SupervisedChild}
    (found : s.children.lookup key = some child) (moved : moves s name key child = true) :
    Renewed s (s.handle_child_exit name reason now mint).1 mint key child := by
  have minted : mint key ∈ mintedBy s (.handle_child_exit name reason now mint) := by
    simp only [mintedBy,(granted_iff s name reason now mint).mpr grants,if_true]
    exact List.mem_map.mpr ⟨(key,child),List.mem_filter.mpr ⟨(Dict.mem_items ..).mpr found,moved⟩,rfl⟩
  refine ⟨⟨_,by rw [exit_granted mint grants,lookup_restarted,found,Option.map_some,if_pos moved]⟩,?_⟩
  intro other old listed same
  exact (List.nodup_append.mp distinct).2.2 old.id (ordered.known other old listed) (mint key) minted same

/-- Two children present are placed in the order of their latest starts. -/
theorem Ordered.lt_iff {s : Supervisor} {names : List String} {ids : List ActorId} (ordered : Ordered s names ids)
    {a b : String} {first second : SupervisedChild} (foundA : s.children.lookup a = some first)
    (foundB : s.children.lookup b = some second) :
    first.start_order < second.start_order ↔ StartedBefore names a b := by
  have placeA := ordered.position a first foundA
  have placeB := ordered.position b second foundB
  unfold StartedBefore
  omega

theorem exit_contained {s : Supervisor} {names : List String} {ids : List ActorId} (ordered : Ordered s names ids)
    (name : String) (reason : ExitReason) (now : Readings) (mint : String → ActorId)
    (distinct : (ids ++ mintedBy s (.handle_child_exit name reason now mint)).Nodup) :
    Contained names s name reason now mint (s.handle_child_exit name reason now mint).1
      (s.handle_child_exit name reason now mint).2 where
  unknown := by
    intro absent
    simp [Supervisor.handle_child_exit,absent]
  refused := exit_refused mint
  counted := by
    intro grants
    rw [exit_granted mint grants]
    rfl
  restarted := by
    intro grants
    obtain ⟨child,found,moved⟩ := grants.exited
    exact ⟨child,found,exit_renews ordered distinct grants found moved⟩
  oneForOne := by
    intro r w kind key other
    refine exit_spares reason now mint other (fun child _ => ?_)
    simp [moves,kind,other]
  earlier := by
    intro r w kind key before
    have other : key ≠ name := by
      rintro rfl
      exact Nat.lt_irrefl _ before
    refine exit_spares reason now mint other (fun child found => ?_)
    cases failed : s.children.lookup name with
    | none => simp [moves,kind,failed]
    | some exited =>
      have placed := (ordered.lt_iff found failed).mpr before
      simp [moves,kind,failed,placed]
  later := by
    intro r w kind grants key child found after _ _
    obtain ⟨exited,failed,-⟩ := grants.exited
    have placed := (ordered.lt_iff failed found).mpr after
    refine exit_renews ordered distinct grants found ?_
    simp [moves,kind,failed,Nat.le_of_lt placed]
  oneForAll := by
    intro r w kind grants key child found _ _
    exact exit_renews ordered distinct grants found (by simp [moves,kind])
  kept := by
    intro key
    by_cases grants : Grants s name reason now
    · rw [exit_granted mint grants,lookup_restarted,Option.map_map]
      congr 1
      funext child
      by_cases moved : moves s name key child = true <;> simp [moved]
    · obtain ⟨text,after⟩ := exit_refused mint grants
      rw [after,lookup_stopped]
      split <;> simp [Function.comp_def]

/-- In every run with fewer than `2 ^ 32 - 1` calls of `start_child` and distinct
    generated ids, an exit changes no more than its strategy says. -/
theorem exit_blast_radius (id : ActorId) (strategy : SupervisionStrategy) (parent : Option ActorId) (ops : List Op)
    (few : ops.countP isStart < 2 ^ 32 - 1) (keeps : ∀ op ∈ ops, KeepsIdentity op) (name : String)
    (reason : ExitReason) (now : Readings) (mint : String → ActorId)
    (distinct : (generated (created id strategy parent) (ops ++ [.handle_child_exit name reason now mint])).Nodup) :
    Contained (starts (created id strategy parent) ops) ((created id strategy parent).run ops) name reason now mint
      (((created id strategy parent).run ops).handle_child_exit name reason now mint).1
      (((created id strategy parent).run ops).handle_child_exit name reason now mint).2 := by
  rw [generated_append] at distinct
  simp only [generated,List.append_nil] at distinct
  exact exit_contained (ordered_run id strategy parent ops few keeps) name reason now mint distinct

/-- Three children, the first of them removed and started again as the youngest. -/
def reordered : List Op :=
  [.start_child { name := "a" } ⟨1⟩,.start_child { name := "b" } ⟨2⟩,.start_child { name := "c" } ⟨3⟩,
    .remove_child "a",.start_child { name := "a" } ⟨4⟩]

/-- The ids generated when all three may be moved. -/
def numbered (name : String) : ActorId := if name = "a" then ⟨5⟩ else if name = "b" then ⟨6⟩ else ⟨7⟩

/-- Under `RestForOne` an exit of "c" spares "b" and restarts "a", which was
    started again after "c". -/
theorem exit_blast_radius_reordered :
    let s := (created ⟨0⟩ (.RestForOne 3 60) none).run reordered
    let s' := (s.handle_child_exit "c" .Killed ⟨0,0⟩ numbered).1
    s'.children.lookup "b" = s.children.lookup "b" ∧ s'.total_restarts = 1 ∧
      ∃ child, s.children.lookup "a" = some child ∧ Renewed s s' numbered "a" child := by
  have contained := exit_blast_radius ⟨0⟩ (.RestForOne 3 60) none reordered (by decide) (by simp [reordered,KeepsIdentity])
    "c" .Killed ⟨0,0⟩ numbered (by decide)
  have grants : Grants ((created ⟨0⟩ (.RestForOne 3 60) none).run reordered) "c" .Killed ⟨0,0⟩ :=
    ⟨3,60,by decide,by decide⟩
  refine ⟨contained.earlier 3 60 rfl "b" (by unfold StartedBefore; decide),contained.counted grants,?_⟩
  exact ⟨_,rfl,contained.later 3 60 rfl grants "a" _ rfl (by unfold StartedBefore; decide) (by decide) (by decide)⟩

end ActorKit.BlastRadius
