import ActorKit.Subtree

/-!
# The walks over a supervisor tree

The recursions follow the child lists. In a well-formed tree they see what the
parent links describe: a subtree is collected in preorder, each supervisor once
and before its descendants, and the depth is the longest chain of parent links.
-/

namespace ActorKit.TreeWalks
open ActorKit.supervisor ActorKit.Forest ActorKit.TreeShape ActorKit.Subtree

/-! ## The order of a collected subtree -/

/-- No supervisor of the list is below a later one. -/
def TopDown (t : SupervisorTree) (ids : List ActorId) : Prop :=
  ids.Pairwise (fun earlier later => ¬ Below t later earlier)

theorem TopDown.nodup {t : SupervisorTree} {ids : List ActorId} (order : TopDown t ids) : ids.Nodup :=
  by
  refine order.imp (fun apart same => apart ?_)
  rw [same]
  exact .refl

theorem pair_sublist {α : Type} {a b : α} {ids : List α} (first : a ∈ ids) (second : b ∈ ids) (different : a ≠ b) :
    [a,b].Sublist ids ∨ [b,a].Sublist ids := by
  induction ids with
  | nil => cases first
  | cons x ids ih =>
    rcases List.mem_cons.mp first with rfl | firstRest
    · have rest := (List.mem_cons.mp second).resolve_left (Ne.symm different)
      exact .inl ((List.singleton_sublist.mpr rest).cons_cons _)
    · rcases List.mem_cons.mp second with rfl | secondRest
      · exact .inr ((List.singleton_sublist.mpr firstRest).cons_cons _)
      · exact (ih firstRest secondRest).imp (.cons _) (.cons _)

/-- A supervisor comes before the others below it. -/
theorem TopDown.before {t : SupervisorTree} {ids : List ActorId} (order : TopDown t ids) {p k : ActorId} (upper : p ∈ ids)
    (lower : k ∈ ids) (below : Below t p k) (other : k ≠ p) : [p,k].Sublist ids := by
  refine (pair_sublist upper lower (Ne.symm other)).resolve_right (fun reversed => ?_)
  exact List.pairwise_iff_forall_sublist.mp order reversed below

theorem related_pairwise {α β : Type} {R : α → β → Prop} {S : α → α → Prop} {T : β → β → Prop} {xs : List α}
    {ys : List β} (related : List.Forall₂ R xs ys) (apart : xs.Pairwise S)
    (carries : ∀ x ∈ xs, ∀ x' ∈ xs, ∀ y y', S x x' → R x y → R x' y' → T y y') : ys.Pairwise T := by
  induction related with
  | nil => exact .nil
  | @cons x y xs ys first rest ih =>
    obtain ⟨away,apart⟩ := List.pairwise_cons.mp apart
    refine List.pairwise_cons.mpr ⟨fun y' member => ?_,ih apart (fun x member x' member' =>
      carries x (List.mem_cons_of_mem _ member) x' (List.mem_cons_of_mem _ member'))⟩
    obtain ⟨x',listed,here⟩ := related_left rest member
    exact carries x List.mem_cons_self x' (List.mem_cons_of_mem _ listed) y y' (away x' listed) first here

/-- The subtree of a supervisor is collected top down. -/
theorem collect_topDown {t : SupervisorTree} (wf : WellFormed t) {depth n : Nat} {id : ActorId} {out : List ActorId}
    (level : Depth (parentOf t) t.root id n) (collected : t.collect_subtree_recursive depth id [] = some out) :
    TopDown t out := by
  induction depth generalizing id n out with
  | zero => cases collected
  | succ depth ih =>
    obtain ⟨parts,rfl,each⟩ := collect_unfold collected
    have up : ∀ child ∈ childrenOf t id, parentOf t child = some id := fun child => (wf.linked id child).mp
    refine List.pairwise_cons.mpr ⟨?_,List.pairwise_flatten.mpr ⟨?_,?_⟩⟩
    · -- what is below a child is not above `id`
      intro k deeper
      obtain ⟨part,partListed,inside⟩ := List.mem_flatten.mp deeper
      obtain ⟨child,listed,here⟩ := related_left each partListed
      exact level.not_above wf.rootParent (up child listed) (collect_below wf here k inside)
    · intro part partListed
      obtain ⟨child,listed,here⟩ := related_left each partListed
      exact ih (.link (up child listed) level) here
    · -- a supervisor below two children would have two ancestors at one depth
      refine related_pairwise each (wf.once id) (fun c listed c' listed' part part' different here here' k inside k'
        inside' below => different ?_)
      exact Depth.same_level wf.rootParent (collect_below wf here k inside)
        (Relation.ReflTransGen.trans below (collect_below wf here' k' inside'))
        (.link (up c listed) level) (.link (up c' listed') level)

/-! ## The depth -/

theorem mapM_related {α β : Type} {f : α → Option β} {xs : List α} {ys : List β} (mapped : xs.mapM f = some ys) :
    List.Forall₂ (fun x y => f x = some y) xs ys := by
  induction xs generalizing ys with
  | nil =>
    cases mapped
    exact .nil
  | cons x xs ih =>
    rw [List.mapM_cons] at mapped
    obtain ⟨y,first,mapped⟩ := Option.bind_eq_some_iff.mp mapped
    obtain ⟨rest,others,same⟩ := Option.bind_eq_some_iff.mp mapped
    cases same
    exact .cons first (ih others)

theorem depth_unfold {t : SupervisorTree} {bound current d : Nat} {id : ActorId}
    (returned : t.calculate_depth (bound + 1) id current = some d) :
    ∃ depths, d = depths.max?.getD current ∧
      List.Forall₂ (fun child depth => t.calculate_depth bound child (current + 1) = some depth) (childrenOf t id)
        depths := by
  simp only [SupervisorTree.calculate_depth] at returned
  cases found : t.supervisor_children.lookup id with
  | none =>
    simp only [found,Option.some.injEq] at returned
    exact ⟨[],by simp [returned],by simp [childrenOf,found]⟩
  | some children =>
    simp only [found] at returned
    obtain ⟨depths,mapped,same⟩ := Option.bind_eq_some_iff.mp returned
    cases same
    rw [childrenOf_found found]
    exact ⟨depths,rfl,mapM_related mapped⟩

/-- The recursion returns the longest chain of links down from a supervisor. -/
theorem depth_longest {t : SupervisorTree} (wf : WellFormed t) {bound current d : Nat} {id : ActorId}
    (returned : t.calculate_depth bound id current = some d) :
    (∃ k n, Depth (parentOf t) id k n ∧ d = current + n) ∧ ∀ k n, Depth (parentOf t) id k n → current + n ≤ d := by
  induction bound generalizing id current d with
  | zero => cases returned
  | succ bound ih =>
    obtain ⟨depths,rfl,each⟩ := depth_unfold returned
    cases longest : depths.max? with
    | none =>
      -- no children: nothing is below
      rw [List.max?_eq_none_iff.mp longest] at each
      have childless : childrenOf t id = [] := List.forall₂_nil_right_iff.mp each
      refine ⟨⟨id,0,.top,rfl⟩,fun k n below => ?_⟩
      cases n with
      | zero => exact Nat.le_refl _
      | succ n =>
        obtain ⟨child,up,-⟩ := below.last
        have listed := (wf.linked id child).mpr up
        rw [childless] at listed
        cases listed
    | some deepest =>
      obtain ⟨member,most⟩ := List.max?_eq_some_iff.mp longest
      have above : current + 1 ≤ deepest := by
        obtain ⟨child,-,here⟩ := related_left each member
        exact (ih here).2 child 0 .top
      constructor
      · obtain ⟨child,listed,here⟩ := related_left each member
        obtain ⟨k,n,below,same⟩ := (ih here).1
        refine ⟨k,n + 1,below.append (.link ((wf.linked id child).mp listed) .top),?_⟩
        rw [Option.getD_some,same]
        omega
      · intro k n below
        rw [Option.getD_some]
        cases n with
        | zero => omega
        | succ n =>
          obtain ⟨child,up,rest⟩ := below.last
          obtain ⟨depth,listed,here⟩ := related_right each ((wf.linked id child).mpr up)
          have bounded := (ih here).2 k n rest
          have small := most depth listed
          omega

/-! ## The two walks -/

/-- In every well-formed tree `collect_subtree` lists a supervisor and its
    descendants once each, every supervisor before those below it, and
    `tree_depth` is the largest number of links up to the root. -/
theorem walks_follow_parents (t : SupervisorTree) (wf : WellFormed t) :
    (∀ id ∈ t.supervisors.keys, ∃ out, t.collect_subtree id = some out ∧ out.Nodup ∧
      (∀ k, k ∈ out ↔ Below t id k) ∧
      ∀ p k, Below t id p → Below t p k → k ≠ p → [p,k].Sublist out ∧ [k,p].Sublist out.reverse) ∧
    ∃ d, t.tree_depth = some d ∧ (∃ id ∈ t.supervisors.keys, Depth (parentOf t) t.root id d) ∧
      ∀ id ∈ t.supervisors.keys, ∀ n, Depth (parentOf t) t.root id n → n ≤ d := by
  have enough : t.supervisors.keys.length < t.supervisor_children.keys.length + 1 := by
    rw [wf.same_length]
    omega
  constructor
  · intro id present
    obtain ⟨n,level⟩ := (wf.rooted id present).depth
    obtain ⟨out,collected⟩ := Option.isSome_iff_exists.mp ((recursions_return wf id enough).1 [])
    have members := mem_collect_iff wf collected
    have order := collect_topDown wf level collected
    refine ⟨out,collected,order.nodup,members,fun p k upper below other => ?_⟩
    have first := order.before ((members p).mpr upper) ((members k).mpr (below.trans upper)) below other
    exact ⟨first,by simpa using first.reverse⟩
  · obtain ⟨d,returned⟩ := Option.isSome_iff_exists.mp ((recursions_return wf t.root enough).2 0)
    obtain ⟨⟨k,n,deepest,same⟩,most⟩ := depth_longest wf returned
    rw [Nat.zero_add] at same
    subst same
    refine ⟨d,returned,⟨k,?_,deepest⟩,fun id _ n level => by simpa using most id n level⟩
    cases deepest with
    | top => exact wf.rootPresent
    | link up _ => exact parentOf_present up

theorem walks_follow_parents_levels : ∃ t, (SupervisorTree.new ⟨0⟩ .SimpleOneForOne).run threeLevels = some t ∧
    (∃ out, t.collect_subtree ⟨0⟩ = some out ∧ out.Nodup) ∧
    ∃ d, t.tree_depth = some d ∧ ∃ id ∈ t.supervisors.keys, Depth (parentOf t) t.root id d := by
  obtain ⟨t,reached,root,wf,-⟩ := wellFormed_run ⟨0⟩ .SimpleOneForOne threeLevels (by decide)
  obtain ⟨walks,d,returned,deepest,-⟩ := walks_follow_parents t wf
  obtain ⟨out,collected,distinct,-⟩ := walks ⟨0⟩ (root ▸ wf.rootPresent)
  exact ⟨t,reached,⟨out,collected,distinct⟩,d,returned,deepest⟩

end ActorKit.TreeWalks
