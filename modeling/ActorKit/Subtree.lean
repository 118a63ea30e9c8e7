import ActorKit.TreeShape

/-!
# The removal of a subtree

`terminate_tree` collects ids along the child lists, shuts the children of the
collected supervisors down and drops the supervisors one by one. In a
well-formed tree this takes away exactly the supervisors below the given one,
the root excepted.
-/

namespace ActorKit.Subtree
open ActorKit.supervisor ActorKit.Exits ActorKit.Forest ActorKit.TreeShape

/-- The supervisor is `id` or a descendant of it. -/
def Below (t : SupervisorTree) (id k : ActorId) : Prop := Reaches (parentOf t) k id

/-- The children of a supervisor are stored under their names. -/
def Keyed (s : Supervisor) : Prop := ∀ key child, s.children.lookup key = some child → child.spec.name = key

/-- A well-formed tree of supervisors that store their children under their
    names. -/
structure Sound (t : SupervisorTree) : Prop extends WellFormed t where
  keyed : ∀ id s, t.supervisors.lookup id = some s → Keyed s

/-- A supervisor with every child stopped. -/
def shutDown (s : Supervisor) : Supervisor :=
  { s with children := s.children.mapValues (fun _ c => { c with state := .Stopped .Shutdown }) }

/-- The tree without the subtree of `id`. -/
structure Pruned (t : SupervisorTree) (id : ActorId) (t' : SupervisorTree) : Prop where
  root : t'.root = t.root
  present : ∀ k, k ∈ t'.supervisors.keys ↔ k = t.root ∨ k ∈ t.supervisors.keys ∧ ¬ Below t id k
  others : ∀ k ∈ t'.supervisors.keys, k ≠ t.root → t'.supervisors.lookup k = t.supervisors.lookup k
  rootKept : id ≠ t.root → t'.supervisors.lookup t.root = t.supervisors.lookup t.root
  rootStopped : id = t.root → ∀ s, t.supervisors.lookup t.root = some s → Keyed s →
    t'.supervisors.lookup t.root = some (shutDown s)
  listed : ∀ k, k ∈ t'.supervisor_children.keys ↔ k ∈ t'.supervisors.keys
  lists : ∀ k ∈ t'.supervisor_children.keys, t'.supervisor_children.lookup k =
    (t.supervisor_children.lookup k).map (List.filter (fun c => c ∈ t'.supervisors.keys))

/-! ## The collected ids -/

/-- Everything collected is below the start. -/
theorem collect_below {t : SupervisorTree} (wf : WellFormed t) {depth : Nat} {id : ActorId} {out : List ActorId}
    (collected : t.collect_subtree_recursive depth id [] = some out) : ∀ k ∈ out, Below t id k := by
  induction depth generalizing id out with
  | zero => cases collected
  | succ depth ih =>
    obtain ⟨parts,rfl,each⟩ := collect_unfold collected
    intro k member
    rcases List.mem_cons.mp member with rfl | deeper
    · exact .refl
    · obtain ⟨part,partListed,inside⟩ := List.mem_flatten.mp deeper
      obtain ⟨child,listed,here⟩ := related_left each partListed
      exact .tail (ih here k inside) ((wf.linked id child).mp listed)

/-- The ids collected are those of the subtree. -/
theorem mem_collect_iff {t : SupervisorTree} (wf : WellFormed t) {depth : Nat} {id : ActorId} {out : List ActorId}
    (collected : t.collect_subtree_recursive depth id [] = some out) (k : ActorId) : k ∈ out ↔ Below t id k := by
  constructor
  · exact collect_below wf collected k
  · intro below
    obtain ⟨first,closed⟩ := collect_closed collected
    induction below using Relation.ReflTransGen.head_induction_on with
    | refl => exact first
    | @head c p up _ ih => exact closed p ih c ((wf.linked p c).mpr up)

/-- The root is below no supervisor but itself. -/
theorem root_below {t : SupervisorTree} (wf : WellFormed t) {id : ActorId} (below : Below t id t.root) : id = t.root := by
  cases Relation.ReflTransGen.cases_head below with
  | inl same => exact same.symm
  | inr above =>
    obtain ⟨p,up,-⟩ := above
    rw [wf.rootParent] at up
    cases up

/-! ## The shutdown of the children -/

/-- Terminating children one by one stops those named. -/
theorem terminate_names (s : Supervisor) (names : List String) :
    names.foldl (fun s name => (s.terminate_child name .Shutdown).1) s =
      { s with children := s.children.mapValues (fun key c =>
        if key ∈ names then { c with state := .Stopped .Shutdown } else c) } := by
  induction names generalizing s with
  | nil =>
    have same : s.children.mapValues (fun _ c => c) = s.children :=
      AList.ext (by simp [Dict.mapValues])
    simp [same]
  | cons name names ih =>
    have first : (s.terminate_child name .Shutdown).1 =
        { s with children := s.children.modify name (fun c => { c with state := .Stopped .Shutdown }) } := by
      simp only [Supervisor.terminate_child]
      split
      · next absent => rw [Dict.modify_absent _ _ _ absent]
      · rfl
    rw [List.foldl_cons,ih,first]
    have entries : Dict.mapValues (fun key (c : SupervisedChild) =>
        if key ∈ names then { c with state := .Stopped .Shutdown } else c)
        (s.children.modify name (fun c => { c with state := .Stopped .Shutdown })) =
        s.children.mapValues (fun key c =>
          if key ∈ name :: names then { c with state := .Stopped .Shutdown } else c) := by
      refine AList.ext ?_
      simp only [Dict.modify,Dict.mapValues,List.map_map]
      refine List.map_congr_left (fun e _ => ?_)
      by_cases own : e.1 = name <;> by_cases later : e.1 ∈ names <;> simp [own,later]
    rw [entries]

/-- When the children are stored under their names, all of them are named. -/
theorem terminate_all {s : Supervisor} (keyed : Keyed s) :
    (s.which_children.map (·.spec.name)).foldl (fun s name => (s.terminate_child name .Shutdown).1) s = shutDown s := by
  rw [terminate_names,shutDown]
  have entries : s.children.mapValues (fun key c =>
      if key ∈ s.which_children.map (·.spec.name) then { c with state := .Stopped .Shutdown } else c) =
      s.children.mapValues (fun _ c => { c with state := .Stopped .Shutdown }) := by
    refine AList.ext ?_
    simp only [Dict.mapValues]
    refine List.map_congr_left (fun e member => ?_)
    have found : s.children.lookup e.1 = some e.2 := AList.mem_lookup_iff.mpr member
    have listed : e.1 ∈ s.which_children.map (·.spec.name) := by
      refine List.mem_map.mpr ⟨e.2,List.mem_map.mpr ⟨(e.1,e.2),(Dict.mem_items ..).mpr found,rfl⟩,?_⟩
      exact keyed e.1 e.2 found
    rw [if_pos listed]
  rw [entries]

theorem shutDown_shutDown (s : Supervisor) : shutDown (shutDown s) = shutDown s := by
  have entries : (shutDown (shutDown s)).children = (shutDown s).children := by
    refine AList.ext ?_
    simp only [shutDown,Dict.mapValues,List.map_map]
    exact List.map_congr_left (fun _ _ => rfl)
  show { shutDown s with children := (shutDown (shutDown s)).children } = shutDown s
  rw [entries]

theorem keyed_shutDown {s : Supervisor} (keyed : Keyed s) : Keyed (shutDown s) := by
  intro key child found
  rw [shutDown,Dict.lookup_mapValues] at found
  obtain ⟨old,before,rfl⟩ := Option.map_eq_some_iff.mp found
  exact keyed key old before

/-- Writing one supervisor name by name is writing it once. -/
theorem modify_names (supervisors : Dict ActorId Supervisor) (id : ActorId) (names : List String) :
    names.foldl (fun supervisors name =>
      Dict.modify id (fun sup : Supervisor => (sup.terminate_child name .Shutdown).1) supervisors) supervisors =
    supervisors.modify id (fun sup => names.foldl (fun s name => (s.terminate_child name .Shutdown).1) sup) := by
  induction names generalizing supervisors with
  | nil =>
    refine AList.ext ?_
    simp only [List.foldl_nil,Dict.modify,Dict.mapValues,ite_self]
    exact (List.map_id _).symm
  | cons name names ih => rw [List.foldl_cons,ih,Dict.modify_modify]; rfl

theorem shutdown_one (supervisors : Dict ActorId Supervisor) (id k : ActorId) :
    (k ≠ id → (SupervisorTree.shutdown_children supervisors id).lookup k = supervisors.lookup k) ∧
    ∀ s, k = id → supervisors.lookup k = some s → Keyed s →
      (SupervisorTree.shutdown_children supervisors id).lookup k = some (shutDown s) := by
  unfold SupervisorTree.shutdown_children
  constructor
  · intro other
    split
    · rw [modify_names,Dict.lookup_modify,if_neg other]
    · rfl
  · rintro s rfl found keyed
    simp only [found,modify_names,Dict.lookup_modify,if_true,Option.map_some,terminate_all keyed]

/-- The first loop of `terminate_tree` shuts the collected supervisors down. -/
theorem shutdown_all (supervisors : Dict ActorId Supervisor) (ids : List ActorId) (k : ActorId) :
    (k ∉ ids → (ids.foldl SupervisorTree.shutdown_children supervisors).lookup k = supervisors.lookup k) ∧
    ∀ s, k ∈ ids → supervisors.lookup k = some s → Keyed s →
      (ids.foldl SupervisorTree.shutdown_children supervisors).lookup k = some (shutDown s) := by
  induction ids generalizing supervisors with
  | nil => exact ⟨fun _ => rfl,fun _ member => by cases member⟩
  | cons id ids ih =>
    obtain ⟨restOthers,restOwn⟩ := ih (SupervisorTree.shutdown_children supervisors id)
    obtain ⟨others,own⟩ := shutdown_one supervisors id k
    rw [List.foldl_cons]
    constructor
    · intro outside
      rw [List.mem_cons,not_or] at outside
      rw [restOthers outside.2,others outside.1]
    · intro s member found keyed
      by_cases first : k = id
      · have once := own s first found keyed
        by_cases again : k ∈ ids
        · rw [restOwn _ again once (keyed_shutDown keyed),shutDown_shutDown]
        · rw [restOthers again,once]
      · rw [restOwn s ((List.mem_cons.mp member).resolve_left first) ((others first).trans found) keyed]

/-! ## The tree that is left -/

theorem shutdown_present (supervisors : Dict ActorId Supervisor) (ids : List ActorId) (k : ActorId) :
    k ∈ (ids.foldl SupervisorTree.shutdown_children supervisors).keys ↔ k ∈ supervisors.keys := by
  have same := congrArg Option.isSome (shutdown_links supervisors ids k)
  rw [Option.isSome_map,Option.isSome_map] at same
  rw [← AList.mem_keys,← AList.mem_keys,← AList.lookup_isSome,← AList.lookup_isSome,same]

/-- Who stays when the collected subtree of `id` is removed. -/
theorem stays_iff {t : SupervisorTree} (wf : WellFormed t) {id : ActorId} {ids : List ActorId}
    (subtree : ∀ k, k ∈ ids ↔ Below t id k) (k : ActorId) :
    ¬ Removed t.root ids k ∧ k ∈ t.supervisors.keys ↔ k = t.root ∨ k ∈ t.supervisors.keys ∧ ¬ Below t id k := by
  rw [Removed,subtree]
  by_cases own : k = t.root
  · simp [own,wf.rootPresent]
  · simp [own,and_comm]

/-- Both loops of `terminate_tree` over the collected subtree of `id`. -/
theorem prune {t : SupervisorTree} (wf : WellFormed t) {id : ActorId} {ids : List ActorId}
    (subtree : ∀ k, k ∈ ids ↔ Below t id k) :
    Pruned t id (ids.foldl SupervisorTree.remove_supervisor
      { t with supervisors := ids.reverse.foldl SupervisorTree.shutdown_children t.supervisors }) := by
  obtain ⟨root,supervisors,children⟩ := remove_all
    { t with supervisors := ids.reverse.foldl SupervisorTree.shutdown_children t.supervisors } ids
  dsimp only at root supervisors children
  generalize ids.foldl SupervisorTree.remove_supervisor _ = t' at root supervisors children ⊢
  have gone : ∀ k, Removed t.root ids k ↔ Below t id k ∧ k ≠ t.root := fun k => by rw [Removed,subtree]
  have present : ∀ k, k ∈ t'.supervisors.keys ↔ k = t.root ∨ k ∈ t.supervisors.keys ∧ ¬ Below t id k := by
    intro k
    rw [← stays_iff wf subtree,Dict.mem_keys_iff,supervisors]
    by_cases removed : Removed t.root ids k
    · simp [removed]
    · rw [if_neg removed,← Dict.mem_keys_iff,shutdown_present]
      simp [removed]
  have untouched : ∀ k, ¬ Below t id k → t'.supervisors.lookup k = t.supervisors.lookup k := by
    intro k outside
    have kept : ¬ Removed t.root ids k := fun removed => outside ((gone k).mp removed).1
    rw [supervisors,if_neg kept]
    exact (shutdown_all t.supervisors ids.reverse k).1 (by rw [List.mem_reverse,subtree]; exact outside)
  have listed : ∀ k, k ∈ t'.supervisor_children.keys ↔ k ∈ t'.supervisors.keys := by
    intro k
    rw [present,← stays_iff wf subtree,wf.sameKeys,Dict.mem_keys_iff,Dict.mem_keys_iff,children]
    by_cases removed : Removed t.root ids k
    · simp [removed]
    · cases t.supervisor_children.lookup k <;> simp [removed]
  refine ⟨root,present,?_,?_,?_,listed,?_⟩
  · intro k member other
    exact untouched k (((present k).mp member).resolve_left other).2
  · intro other
    exact untouched t.root (fun below => other (root_below wf below))
  · rintro rfl s found keyed
    have kept : ¬ Removed t.root ids t.root := fun removed => removed.2 rfl
    have inside : t.root ∈ ids.reverse := by rw [List.mem_reverse,subtree]; exact .refl
    rw [supervisors,if_neg kept]
    exact (shutdown_all t.supervisors ids.reverse t.root).2 s inside found keyed
  · intro k member
    have kept : ¬ Removed t.root ids k := by
      intro removed
      rw [Dict.mem_keys_iff,children,if_pos removed] at member
      obtain ⟨list,none⟩ := member
      cases none
    rw [children,if_neg kept]
    cases found : t.supervisor_children.lookup k with
    | none => rfl
    | some list =>
      simp only [Option.map_some,Option.some.injEq]
      refine List.filter_congr (fun c inside => ?_)
      -- A listed child is present and is not the root, so it stays unless it is below `id`.
      have up : parentOf t c = some k := (wf.linked k c).mp (by rw [childrenOf_found found]; exact inside)
      have other : c ≠ t.root := by
        rintro rfl
        rw [wf.rootParent] at up
        cases up
      rw [decide_eq_decide,present,gone]
      simp [other,parentOf_present up]

/-! ## Runs -/

/-- A caller that takes a child by `get_child_mut` leaves its name alone. -/
def KeepsName : Op → Prop
  | .get_child_mut _ write => ∀ child, (write child).spec.name = child.spec.name
  | _ => True

/-- The operation reaches no supervisor that would rename a child. -/
def KeepsNames : TreeOp → Prop
  | .get_supervisor_mut _ op => KeepsName op
  | _ => True

theorem keyed_write {s : Supervisor} (keyed : Keyed s) (name : String) {write : SupervisedChild → SupervisedChild}
    (keeps : ∀ child, (write child).spec.name = child.spec.name) :
    Keyed { s with children := s.children.modify name write } := by
  intro key child found
  rw [Dict.lookup_modify] at found
  split at found
  · obtain ⟨old,before,rfl⟩ := Option.map_eq_some_iff.mp found
    exact (keeps old).trans (keyed key old before)
  · exact keyed key child found

theorem keyed_apply {s : Supervisor} (keyed : Keyed s) {op : Op} (keeps : KeepsName op) : Keyed (s.apply op) := by
  have effect := apply_effect s op
  generalize s.apply op = after at effect ⊢
  cases effect with
  | escalation | taken | idle => exact keyed
  | state _ name => exact keyed_write keyed name (fun _ => rfl)
  | byHand name write => exact keyed_write keyed name keeps
  | started spec id =>
    intro key child found
    rw [Dict.lookup_insert_ite] at found
    split at found
    · next own =>
      cases found
      exact own.symm
    · exact keyed key child found
  | removed name =>
    intro key child found
    rw [Dict.lookup_erase_ite] at found
    split at found
    · cases found
    · exact keyed key child found
  | exit name reason now mint _ outcome =>
    cases outcome with
    | undecided | refused => exact keyed_write keyed name (fun _ => rfl)
    | granted =>
      intro key child found
      rw [lookup_restarted] at found
      obtain ⟨old,before,rfl⟩ := Option.map_eq_some_iff.mp found
      have named := keyed key old before
      split <;> exact named

theorem keyed_modify {t : SupervisorTree} (keyed : ∀ id s, t.supervisors.lookup id = some s → Keyed s) (id : ActorId)
    {op : Op} (keeps : KeepsName op) : ∀ k s, (t.supervisors.modify id (·.apply op)).lookup k = some s → Keyed s := by
  intro k s found
  rw [Dict.lookup_modify] at found
  split at found
  · obtain ⟨old,before,rfl⟩ := Option.map_eq_some_iff.mp found
    exact keyed_apply (keyed k old before) keeps
  · exact keyed k s found

theorem Pruned.keyed {t t' : SupervisorTree} {id : ActorId} (pruned : Pruned t id t') (sound : Sound t) :
    ∀ k s, t'.supervisors.lookup k = some s → Keyed s := by
  intro k s found
  by_cases own : k = t.root
  · subst own
    by_cases all : id = t.root
    · obtain ⟨old,before⟩ := (Dict.mem_keys_iff ..).mp sound.rootPresent
      have oldKeyed := sound.keyed _ old before
      rw [pruned.rootStopped all old before oldKeyed] at found
      cases found
      exact keyed_shutDown oldKeyed
    · rw [pruned.rootKept all] at found
      exact sound.keyed _ s found
  · rw [pruned.others k ((Dict.mem_keys_iff ..).mpr ⟨s,found⟩) own] at found
    exact sound.keyed k s found

/-- `terminate_tree` on a present id returns the pruned tree. -/
theorem terminate_returns {t : SupervisorTree} (wf : WellFormed t) {id : ActorId} (member : id ∈ t.supervisors.keys) :
    ∃ t', t.terminate_tree id = some (t',.ok ()) ∧ Pruned t id t' := by
  obtain ⟨s,found⟩ := (Dict.mem_keys_iff ..).mp member
  have enough : t.supervisors.keys.length < t.supervisor_children.keys.length + 1 := by
    rw [wf.same_length]
    omega
  obtain ⟨ids,collected⟩ := Option.isSome_iff_exists.mp ((recursions_return wf id enough).1 [])
  refine ⟨_,?_,prune wf (mem_collect_iff wf collected)⟩
  simp [SupervisorTree.terminate_tree,SupervisorTree.collect_subtree,found,collected]

theorem terminate_unknown {t : SupervisorTree} {id : ActorId} (absent : id ∉ t.supervisors.keys) :
    t.terminate_tree id = some (t,.error (SupervisorError.SupervisorNotFound id).into) := by
  have none : t.supervisors.lookup id = none :=
    AList.lookup_eq_none.mpr (fun member => absent (AList.mem_keys.mp member))
  simp [SupervisorTree.terminate_tree,none]

theorem sound_apply {t t' : SupervisorTree} (sound : Sound t) {op : TreeOp} (keeps : KeepsNames op)
    (fresh : ∀ id ∈ op.minted, id ∉ t.supervisors.keys) (applied : t.apply op = some t') : Sound t' := by
  obtain ⟨t1,returned,-,wf,-⟩ := wellFormed_apply sound.toWellFormed op fresh
  rw [applied] at returned
  cases returned
  refine ⟨wf,?_⟩
  cases op with
  | add_supervisor parent strategy id =>
    simp only [SupervisorTree.apply,Option.some.injEq,SupervisorTree.add_supervisor] at applied
    split at applied
    · subst applied
      exact sound.keyed
    · subst applied
      intro k s found
      rw [Dict.lookup_insert_ite] at found
      split at found
      · cases found
        intro key child none
        cases none
      · exact sound.keyed k s found
  | start_child_under supervisor spec id =>
    simp only [SupervisorTree.apply,Option.some.injEq,SupervisorTree.start_child_under] at applied
    split at applied
    · subst applied
      exact sound.keyed
    · subst applied
      have keepsName : KeepsName (.start_child spec id) := trivial
      exact keyed_modify sound.keyed supervisor keepsName
  | handle_child_exit supervisor_id child_name reason now mint =>
    simp only [SupervisorTree.apply,Option.some.injEq,SupervisorTree.handle_child_exit] at applied
    split at applied
    · subst applied
      exact sound.keyed
    · subst applied
      have keepsName : KeepsName (.handle_child_exit child_name reason now mint) := trivial
      exact keyed_modify sound.keyed supervisor_id keepsName
  | get_supervisor_mut id op =>
    simp only [SupervisorTree.apply,Option.some.injEq] at applied
    subst applied
    exact keyed_modify sound.keyed id keeps
  | terminate_tree root_id =>
    by_cases member : root_id ∈ t.supervisors.keys
    · obtain ⟨t2,returned,pruned⟩ := terminate_returns sound.toWellFormed member
      simp only [SupervisorTree.apply,returned,Option.map_some,Option.some.injEq] at applied
      subst applied
      exact pruned.keyed sound
    · simp only [SupervisorTree.apply,terminate_unknown member,Option.map_some,Option.some.injEq] at applied
      subst applied
      exact sound.keyed

/-- A run that mints distinct ids for its supervisors and renames no child
    leaves a sound tree. -/
theorem sound_run (root : ActorId) (strategy : SupervisionStrategy) (ops : List TreeOp)
    (distinct : (root :: ops.filterMap TreeOp.minted).Nodup) (keeps : ∀ op ∈ ops, KeepsNames op) :
    ∃ t, (SupervisorTree.new root strategy).run ops = some t ∧ Sound t := by
  induction ops using List.reverseRecOn with
  | nil =>
    refine ⟨_,rfl,wellFormed_new root strategy,?_⟩
    intro id s found
    simp only [SupervisorTree.new,Dict.lookup_insert_ite] at found
    split at found
    · cases found
      intro key child none
      cases none
    · cases found
  | append_singleton ops op ih =>
    rw [List.filterMap_append,← List.cons_append] at distinct
    obtain ⟨before,-,apart⟩ := List.nodup_append.mp distinct
    obtain ⟨t,reached,sound⟩ := ih before (fun op member => keeps op (List.mem_append_left _ member))
    obtain ⟨t2,again,-,-,known⟩ := wellFormed_run root strategy ops before
    rw [reached] at again
    cases again
    have fresh : ∀ id ∈ op.minted, id ∉ t.supervisors.keys := by
      intro id minted member
      exact apart id (known id member) id (by simp [Option.mem_def.mp minted]) rfl
    obtain ⟨t',applied,-⟩ := wellFormed_apply sound.toWellFormed op fresh
    refine ⟨t',?_,sound_apply sound (keeps op (by simp)) fresh applied⟩
    rw [SupervisorTree.run,List.foldlM_append]
    show Option.bind ((SupervisorTree.new root strategy).run ops) _ = _
    simp [reached,applied]

/-- In every well-formed tree `terminate_tree` removes exactly one subtree. That it
    stops the children of the root rests on their names as keys. -/
theorem terminate_tree_prunes (t : SupervisorTree) (wf : WellFormed t) (id : ActorId) :
    (id ∉ t.supervisors.keys → t.terminate_tree id = some (t,.error (SupervisorError.SupervisorNotFound id).into)) ∧
    (id ∈ t.supervisors.keys → ∃ t', t.terminate_tree id = some (t',.ok ()) ∧ Pruned t id t') :=
  ⟨terminate_unknown,terminate_returns wf⟩

/-- Three levels with a child under the root. -/
def threeLevels : List TreeOp :=
  [.add_supervisor ⟨0⟩ .SimpleOneForOne ⟨1⟩,.add_supervisor ⟨1⟩ .SimpleOneForOne ⟨2⟩,
    .add_supervisor ⟨0⟩ .SimpleOneForOne ⟨3⟩,.start_child_under ⟨0⟩ { name := "worker" } ⟨4⟩]

theorem terminate_tree_prunes_levels :
    ∃ t, (SupervisorTree.new ⟨0⟩ .SimpleOneForOne).run threeLevels = some t ∧
      (∃ t', t.terminate_tree ⟨1⟩ = some (t',.ok ()) ∧ Pruned t ⟨1⟩ t') ∧
      ∃ t' s, t.terminate_tree ⟨0⟩ = some (t',.ok ()) ∧ Pruned t ⟨0⟩ t' ∧ t.supervisors.lookup ⟨0⟩ = some s ∧
        t'.supervisors.lookup ⟨0⟩ = some (shutDown s) := by
  obtain ⟨t,reached,sound⟩ := sound_run ⟨0⟩ .SimpleOneForOne threeLevels (by decide) (by simp [threeLevels,KeepsNames])
  have keys : ((SupervisorTree.new ⟨0⟩ .SimpleOneForOne).run threeLevels).map (·.supervisors.keys) =
      some [⟨3⟩,⟨2⟩,⟨1⟩,⟨0⟩] := by decide
  rw [reached] at keys
  have known : t.supervisors.keys = [⟨3⟩,⟨2⟩,⟨1⟩,⟨0⟩] := Option.some.inj keys
  have root : t.root = ⟨0⟩ := by
    have root : ((SupervisorTree.new ⟨0⟩ .SimpleOneForOne).run threeLevels).map (·.root) = some ⟨0⟩ := by decide
    rw [reached] at root
    exact Option.some.inj root
  obtain ⟨t',returned,pruned⟩ := (terminate_tree_prunes t sound.toWellFormed ⟨0⟩).2 (by rw [known]; decide)
  obtain ⟨s,found⟩ := (Dict.mem_keys_iff ..).mp sound.rootPresent
  have stopped := pruned.rootStopped root.symm s found (sound.keyed _ s found)
  rw [root] at found stopped
  exact ⟨t,reached,(terminate_tree_prunes t sound.toWellFormed ⟨1⟩).2 (by rw [known]; decide),t',s,returned,pruned,found,stopped⟩

end ActorKit.Subtree
