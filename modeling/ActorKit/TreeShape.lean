import ActorKit.SupervisorTree
import ActorKit.Exits
import ActorKit.Lib.Forest
import Mathlib.Data.List.Induction

/-!
# The shape of a supervisor tree

The two maps and the parent fields describe one tree, and every operation keeps
it. Nothing about the supervisors but presence and parent matters, so the
operations of single supervisors keep the shape as a whole.
-/

namespace ActorKit.TreeShape
open ActorKit.supervisor ActorKit.Exits ActorKit.Forest

/-- The parent field of a supervisor, present or not. -/
def link (t : SupervisorTree) (id : ActorId) : Option (Option ActorId) := (t.supervisors.lookup id).map (·.parent)

def parentOf (t : SupervisorTree) (id : ActorId) : Option ActorId := (t.supervisors.lookup id).bind (·.parent)

def childrenOf (t : SupervisorTree) (id : ActorId) : List ActorId := (t.supervisor_children.lookup id).getD []

/-- The maps and the parent fields agree on one tree below the root. -/
structure WellFormed (t : SupervisorTree) : Prop where
  sameKeys : ∀ id, id ∈ t.supervisors.keys ↔ id ∈ t.supervisor_children.keys
  rootPresent : t.root ∈ t.supervisors.keys
  rootParent : parentOf t t.root = none
  linked : ∀ p c, c ∈ childrenOf t p ↔ parentOf t c = some p
  once : ∀ p, (childrenOf t p).Nodup
  rooted : ∀ id ∈ t.supervisors.keys, Reaches (parentOf t) id t.root

theorem parentOf_link (t : SupervisorTree) (id : ActorId) : parentOf t id = (link t id).bind (·) := by
  simp only [parentOf,link,Option.bind_map]; rfl

theorem mem_keys_link (t : SupervisorTree) (id : ActorId) : id ∈ t.supervisors.keys ↔ (link t id).isSome := by
  simp [link,Dict.mem_keys_iff,Option.isSome_iff_exists]

theorem parentOf_present {t : SupervisorTree} {c p : ActorId} (up : parentOf t c = some p) :
    c ∈ t.supervisors.keys := by
  obtain ⟨s,found,-⟩ := Option.bind_eq_some_iff.mp up
  exact (Dict.mem_keys_iff ..).mpr ⟨s,found⟩

/-- The shape reads only presence, parents and child lists. -/
theorem WellFormed.congr {t t' : SupervisorTree} (wf : WellFormed t) (root : t'.root = t.root)
    (links : ∀ id, link t' id = link t id) (children : t'.supervisor_children = t.supervisor_children) :
    WellFormed t' := by
  have parents : parentOf t' = parentOf t := by
    funext id
    rw [parentOf_link,parentOf_link,links]
  have present : ∀ id, id ∈ t'.supervisors.keys ↔ id ∈ t.supervisors.keys := by
    intro id
    rw [mem_keys_link,mem_keys_link,links]
  refine ⟨?_,?_,?_,?_,?_,?_⟩
  · intro id; rw [present,children]; exact wf.sameKeys id
  · rw [present,root]; exact wf.rootPresent
  · rw [parents,root]; exact wf.rootParent
  · intro p c; rw [parents,childrenOf,children]; exact wf.linked p c
  · intro p; rw [childrenOf,children]; exact wf.once p
  · intro id member
    rw [parents,root]
    exact wf.rooted id ((present id).mp member)

/-! ## Creation and insertion -/

theorem wellFormed_new (root : ActorId) (strategy : SupervisionStrategy) : WellFormed (.new root strategy) := by
  have present : ∀ id, id ∈ (SupervisorTree.new root strategy).supervisors.keys ↔ id = root := by
    intro id; simp [SupervisorTree.new]
  have none : ∀ id, parentOf (.new root strategy) id = none := by
    intro id
    simp only [parentOf,SupervisorTree.new,Dict.lookup_insert_ite]
    split <;> rfl
  have empty : ∀ id, childrenOf (.new root strategy) id = [] := by
    intro id
    simp only [childrenOf,SupervisorTree.new,Dict.lookup_insert_ite]
    split <;> rfl
  refine ⟨?_,(present root).mpr rfl,none _,?_,?_,?_⟩
  · intro id
    rw [present]
    simp [SupervisorTree.new]
  · intro p c; simp [none,empty]
  · intro p; simp [empty]
  · intro id member
    cases (present id).mp member
    exact .refl

theorem wellFormed_add {t : SupervisorTree} (wf : WellFormed t) (parent : ActorId) (strategy : SupervisionStrategy)
    {id : ActorId} (fresh : id ∉ t.supervisors.keys) : WellFormed (t.add_supervisor parent strategy id).1 := by
  unfold SupervisorTree.add_supervisor
  cases found : t.supervisors.lookup parent with
  | none => exact wf
  | some above =>
    simp only [Option.isNone_some,Bool.false_eq_true,if_false]
    have parentPresent : parent ∈ t.supervisors.keys := (Dict.mem_keys_iff ..).mpr ⟨above,found⟩
    have different : parent ≠ id := by rintro rfl; exact fresh parentPresent
    set t' : SupervisorTree := { t with
      supervisors := t.supervisors.insert id (Supervisor.with_parent id strategy parent)
      supervisor_children := Dict.modify parent (· ++ [id]) (t.supervisor_children.insert id []) } with shape
    have parents : ∀ c, parentOf t' c = if c = id then some parent else parentOf t c := by
      intro c
      simp only [parentOf,shape,Dict.lookup_insert_ite]
      split <;> rfl
    have present : ∀ c, c ∈ t'.supervisors.keys ↔ c = id ∨ c ∈ t.supervisors.keys := by
      intro c
      simp only [shape,Dict.mem_keys_iff,Dict.lookup_insert_ite]
      by_cases own : c = id <;> simp [own]
    have noChildren : childrenOf t id = [] := by
      rw [childrenOf,AList.lookup_eq_none.mpr]
      · rfl
      · intro member
        exact fresh ((wf.sameKeys id).mpr (AList.mem_keys.mp member))
    have children : ∀ p, childrenOf t' p = if p = parent then childrenOf t p ++ [id] else childrenOf t p := by
      intro p
      simp only [childrenOf,shape,Dict.lookup_modify,Dict.lookup_insert_ite]
      by_cases own : p = parent
      · obtain ⟨list,listed⟩ := (Dict.mem_keys_iff ..).mp ((wf.sameKeys parent).mp parentPresent)
        subst own
        simp [different,listed]
      · by_cases new : p = id
        · subst new
          simpa [own,childrenOf] using noChildren.symm
        · simp [own,new]
    have unlisted : ∀ p, id ∉ childrenOf t p := by
      intro p member
      exact fresh (parentOf_present ((wf.linked p id).mp member))
    have up : ∀ c above, parentOf t c = some above → parentOf t' c = some above := by
      intro c above link
      have other : c ≠ id := by rintro rfl; exact fresh (parentOf_present link)
      rw [parents,if_neg other]
      exact link
    have rooted : ∀ c ∈ t.supervisors.keys, Reaches (parentOf t') c t.root := fun c member =>
      Relation.ReflTransGen.mono up _ _ (wf.rooted c member)
    refine ⟨?_,(present _).mpr (.inr wf.rootPresent),?_,?_,?_,?_⟩
    · intro c
      have same := wf.sameKeys c
      rw [present,same]
      simp only [shape,Dict.keys_modify,Dict.mem_keys_iff,Dict.lookup_insert_ite]
      by_cases own : c = id <;> simp [own]
    · have other : t.root ≠ id := by rintro same; exact fresh (same ▸ wf.rootPresent)
      show parentOf t' t.root = none
      rw [parents,if_neg other]
      exact wf.rootParent
    · intro p c
      rw [children,parents]
      by_cases new : c = id
      · subst new
        by_cases own : p = parent
        · simp [own]
        · simp [own,unlisted,Ne.symm own]
      · by_cases own : p = parent
        · simp [own,new,wf.linked]
        · simp [own,new,wf.linked]
    · intro p
      rw [children]
      split
      · rw [List.nodup_append]
        refine ⟨wf.once p,List.nodup_singleton _,?_⟩
        rintro a member b single rfl
        exact unlisted p (List.mem_singleton.mp single ▸ member)
      · exact wf.once p
    · intro c member
      rcases (present c).mp member with rfl | old
      · exact .head (by rw [parents,if_pos rfl]) (rooted parent parentPresent)
      · exact rooted c old

/-! ## Operations of single supervisors -/

/-- Writing one supervisor without touching its parent keeps every link. -/
theorem modify_links (supervisors : Dict ActorId Supervisor) (id : ActorId) (f : Supervisor → Supervisor)
    (keeps : ∀ s, (f s).parent = s.parent) (k : ActorId) :
    ((supervisors.modify id f).lookup k).map (·.parent) = (supervisors.lookup k).map (·.parent) := by
  rw [Dict.lookup_modify]
  split
  · cases supervisors.lookup k <;> simp [keeps]
  · rfl

theorem wellFormed_modify {t : SupervisorTree} (wf : WellFormed t) (id : ActorId) (f : Supervisor → Supervisor)
    (keeps : ∀ s, (f s).parent = s.parent) : WellFormed { t with supervisors := t.supervisors.modify id f } :=
  wf.congr rfl (modify_links t.supervisors id f keeps) rfl

/-! ## Removal of a subtree -/

theorem shutdown_links (supervisors : Dict ActorId Supervisor) (ids : List ActorId) (k : ActorId) :
    ((ids.foldl SupervisorTree.shutdown_children supervisors).lookup k).map (·.parent) =
      (supervisors.lookup k).map (·.parent) := by
  have names : ∀ (id : ActorId) (names : List String) (supervisors : Dict ActorId Supervisor),
      ((names.foldl (fun sups name => Dict.modify id (fun s : Supervisor => (s.terminate_child name .Shutdown).1) sups)
        supervisors).lookup k).map (·.parent) = (supervisors.lookup k).map (·.parent) := by
    intro id names
    induction names with
    | nil => intro supervisors; rfl
    | cons name names ih =>
      intro supervisors
      rw [List.foldl_cons,ih,modify_links]
      exact fun s => (apply_frame s (.terminate_child name .Shutdown)).2.2
  induction ids generalizing supervisors with
  | nil => rfl
  | cons id ids ih =>
    rw [List.foldl_cons,ih,SupervisorTree.shutdown_children]
    split
    · exact names id _ supervisors
    · rfl

/-- The supervisors the second loop of `terminate_tree` removes. -/
def Removed (root : ActorId) (ids : List ActorId) (id : ActorId) : Prop := id ∈ ids ∧ id ≠ root

instance (root : ActorId) (ids : List ActorId) (id : ActorId) : Decidable (Removed root ids id) :=
  inferInstanceAs (Decidable (_ ∧ _))

theorem removed_cons (root : ActorId) (first : ActorId) (ids : List ActorId) (id : ActorId) :
    Removed root (first :: ids) id ↔ Removed root [first] id ∨ Removed root ids id := by
  simp only [Removed,List.mem_cons,List.not_mem_nil,or_false,or_and_right]

theorem remove_one (t : SupervisorTree) (id : ActorId) :
    (t.remove_supervisor id).root = t.root ∧
    (∀ k, (t.remove_supervisor id).supervisors.lookup k =
      if Removed t.root [id] k then none else t.supervisors.lookup k) ∧
    ∀ k, (t.remove_supervisor id).supervisor_children.lookup k =
      if Removed t.root [id] k then none
      else (t.supervisor_children.lookup k).map (List.filter (fun c => ¬ Removed t.root [id] c)) := by
  unfold SupervisorTree.remove_supervisor
  by_cases keep : id = t.root
  · have never : ∀ k, ¬ Removed t.root [id] k := by
      rintro k ⟨same,other⟩
      exact other ((List.mem_singleton.mp same).trans keep)
    have all : List.filter (fun c => decide ¬ Removed t.root [id] c) = fun list => list := by
      funext list
      exact List.filter_eq_self.mpr (fun c _ => by simp [never])
    rw [if_neg (by simp [keep])]
    refine ⟨rfl,fun k => by rw [if_neg (never k)],fun k => ?_⟩
    rw [if_neg (never k),all,Option.map_id']
  · have only : ∀ k, Removed t.root [id] k ↔ k = id := by
      intro k
      exact ⟨fun removed => List.mem_singleton.mp removed.1,fun same => ⟨by simp [same],same ▸ keep⟩⟩
    simp only [ne_eq,keep,not_false_eq_true,if_true,Dict.lookup_mapValues,Dict.lookup_erase_ite,only]
    refine ⟨trivial,fun k => trivial,fun k => ?_⟩
    split <;> rfl

/-- What the second loop of `terminate_tree` leaves. -/
theorem remove_all (t : SupervisorTree) (ids : List ActorId) :
    (ids.foldl SupervisorTree.remove_supervisor t).root = t.root ∧
    (∀ k, (ids.foldl SupervisorTree.remove_supervisor t).supervisors.lookup k =
      if Removed t.root ids k then none else t.supervisors.lookup k) ∧
    ∀ k, (ids.foldl SupervisorTree.remove_supervisor t).supervisor_children.lookup k =
      if Removed t.root ids k then none
      else (t.supervisor_children.lookup k).map (List.filter (fun c => ¬ Removed t.root ids c)) := by
  induction ids generalizing t with
  | nil =>
    refine ⟨rfl,fun k => by simp [Removed],fun k => ?_⟩
    cases found : t.supervisor_children.lookup k <;> simp [Removed,found]
  | cons id ids ih =>
    obtain ⟨root,supervisors,children⟩ := ih (t.remove_supervisor id)
    obtain ⟨same,one,oneChildren⟩ := remove_one t id
    rw [List.foldl_cons,root,same]
    simp only [same] at supervisors children
    refine ⟨rfl,fun k => ?_,fun k => ?_⟩
    · rw [supervisors,one]
      by_cases later : Removed t.root ids k <;> by_cases now : Removed t.root [id] k <;>
        simp [removed_cons t.root id ids,later,now]
    · rw [children,oneChildren]
      by_cases later : Removed t.root ids k <;> by_cases now : Removed t.root [id] k <;>
        simp [removed_cons t.root id ids,later,now,Function.comp_def,List.filter_filter,Bool.and_comm]

/-- Removing a set of supervisors that is closed under children keeps the
    shape of the rest. -/
theorem wellFormed_remove {t : SupervisorTree} (wf : WellFormed t) (ids : List ActorId)
    (closed : ∀ p ∈ ids, ∀ c ∈ childrenOf t p, c ∈ ids) :
    WellFormed (ids.foldl SupervisorTree.remove_supervisor t) := by
  obtain ⟨root,supervisors,children⟩ := remove_all t ids
  generalize ids.foldl SupervisorTree.remove_supervisor t = t' at root supervisors children ⊢
  have parents : ∀ k, parentOf t' k = if Removed t.root ids k then none else parentOf t k := by
    intro k
    rw [parentOf,supervisors]
    split <;> rfl
  have present : ∀ k, k ∈ t'.supervisors.keys ↔ ¬ Removed t.root ids k ∧ k ∈ t.supervisors.keys := by
    intro k
    rw [Dict.mem_keys_iff,Dict.mem_keys_iff,supervisors]
    split <;> simp [*]
  have lists : ∀ k, childrenOf t' k =
      if Removed t.root ids k then [] else (childrenOf t k).filter (fun c => ¬ Removed t.root ids c) := by
    intro k
    rw [childrenOf,children]
    split
    · rfl
    · cases found : t.supervisor_children.lookup k <;> simp [childrenOf,found]
  -- A supervisor whose parent is removed is removed with it.
  have down : ∀ c p, parentOf t c = some p → Removed t.root ids p → Removed t.root ids c := by
    intro c p up removed
    refine ⟨closed p removed.1 c ((wf.linked p c).mpr up),?_⟩
    rintro rfl
    rw [wf.rootParent] at up
    cases up
  refine ⟨?_,?_,?_,?_,?_,?_⟩
  · intro k
    rw [present,wf.sameKeys,Dict.mem_keys_iff,Dict.mem_keys_iff,children]
    split <;> simp [*]
  · rw [present,root]
    exact ⟨fun removed => removed.2 rfl,wf.rootPresent⟩
  · rw [parents,root,wf.rootParent]
    split <;> rfl
  · intro p c
    rw [lists,parents]
    by_cases gone : Removed t.root ids p
    · by_cases too : Removed t.root ids c
      · simp [gone,too]
      · simp only [gone,too,if_true,if_false,List.not_mem_nil,false_iff]
        intro up
        exact too (down c p up gone)
    · by_cases too : Removed t.root ids c <;> simp [gone,too,wf.linked]
  · intro p
    rw [lists]
    split
    · exact List.nodup_nil
    · exact (wf.once p).filter _
  · intro k member
    obtain ⟨stays,old⟩ := (present k).mp member
    rw [root]
    have path := wf.rooted k old
    clear member old
    induction path using Relation.ReflTransGen.head_induction_on with
    | refl => exact .refl
    | @head c p up _ ih =>
      refine .head (by rw [parents,if_neg stays]; exact up) (ih ?_)
      intro gone
      exact stays (down c p up gone)

/-! ## The recursions over the child lists -/

/-- The recursion appends to what it is given. -/
theorem collect_appends (t : SupervisorTree) (depth : Nat) (id : ActorId) (result : List ActorId) :
    t.collect_subtree_recursive depth id result = (t.collect_subtree_recursive depth id []).map (result ++ ·) := by
  induction depth generalizing id result with
  | zero => rfl
  | succ depth ih =>
    have folds : ∀ (children acc : List ActorId),
        children.foldlM (fun result child => t.collect_subtree_recursive depth child result) (result ++ acc) =
          (children.foldlM (fun result child => t.collect_subtree_recursive depth child result) acc).map
            (result ++ ·) := by
      intro children
      induction children with
      | nil => intro acc; rfl
      | cons child children rest =>
        intro acc
        rw [List.foldlM_cons,List.foldlM_cons,ih child (result ++ acc),ih child acc]
        cases t.collect_subtree_recursive depth child [] with
        | none => rfl
        | some part =>
          simp only [Option.map_some,Option.bind_eq_bind,Option.bind_some,List.append_assoc]
          exact rest (acc ++ part)
    simp only [SupervisorTree.collect_subtree_recursive]
    cases t.supervisor_children.lookup id with
    | none => simp
    | some children => exact folds children [id]

/-- The parts the children of a node contribute. -/
theorem collect_children {t : SupervisorTree} {depth : Nat} {children acc out : List ActorId}
    (collected : children.foldlM (fun result child => t.collect_subtree_recursive depth child result) acc = some out) :
    ∃ parts, out = acc ++ parts.flatten ∧
      List.Forall₂ (fun child part => t.collect_subtree_recursive depth child [] = some part) children parts := by
  induction children generalizing acc with
  | nil =>
    cases collected
    exact ⟨[],by simp,.nil⟩
  | cons child children ih =>
    rw [List.foldlM_cons,collect_appends] at collected
    obtain ⟨next,first,rest⟩ := Option.bind_eq_some_iff.mp collected
    obtain ⟨part,here,rfl⟩ := Option.map_eq_some_iff.mp first
    obtain ⟨parts,rfl,each⟩ := ih rest
    exact ⟨part :: parts,by simp,.cons here each⟩

theorem childrenOf_found {t : SupervisorTree} {id : ActorId} {children : List ActorId}
    (found : t.supervisor_children.lookup id = some children) : childrenOf t id = children := by
  simp [childrenOf,found]

/-- A collected subtree is its top and the parts below the children. -/
theorem collect_unfold {t : SupervisorTree} {depth : Nat} {id : ActorId} {out : List ActorId}
    (collected : t.collect_subtree_recursive (depth + 1) id [] = some out) :
    ∃ parts, out = id :: parts.flatten ∧
      List.Forall₂ (fun child part => t.collect_subtree_recursive depth child [] = some part) (childrenOf t id) parts := by
  simp only [SupervisorTree.collect_subtree_recursive] at collected
  cases found : t.supervisor_children.lookup id with
  | none =>
    simp only [found,List.nil_append,Option.some.injEq] at collected
    subst collected
    exact ⟨[],rfl,by simp [childrenOf,found]⟩
  | some children =>
    simp only [found] at collected
    obtain ⟨parts,rfl,each⟩ := collect_children collected
    rw [childrenOf_found found]
    exact ⟨parts,rfl,each⟩

section
variable {α β : Type} {R : α → β → Prop} {xs : List α} {ys : List β}

theorem related_left (related : List.Forall₂ R xs ys) {y : β} (member : y ∈ ys) : ∃ x ∈ xs, R x y := by
  induction related with
  | nil => cases member
  | @cons x y' xs ys first _ ih =>
    rcases List.mem_cons.mp member with rfl | rest
    · exact ⟨x,List.mem_cons_self,first⟩
    · obtain ⟨x',listed,here⟩ := ih rest
      exact ⟨x',List.mem_cons_of_mem _ listed,here⟩

theorem related_right (related : List.Forall₂ R xs ys) {x : α} (member : x ∈ xs) : ∃ y ∈ ys, R x y :=
  related_left related.flip member

end

/-- A collected subtree holds the children of everything in it. -/
theorem collect_closed {t : SupervisorTree} {depth : Nat} {id : ActorId} {out : List ActorId}
    (collected : t.collect_subtree_recursive depth id [] = some out) :
    id ∈ out ∧ ∀ p ∈ out, ∀ c ∈ childrenOf t p, c ∈ out := by
  induction depth generalizing id out with
  | zero => cases collected
  | succ depth ih =>
    obtain ⟨parts,rfl,each⟩ := collect_unfold collected
    refine ⟨List.mem_cons_self,?_⟩
    intro p member c child
    rcases List.mem_cons.mp member with rfl | below
    · obtain ⟨part,partListed,here⟩ := related_right each child
      exact List.mem_cons_of_mem _ (List.mem_flatten.mpr ⟨part,partListed,(ih here).1⟩)
    · obtain ⟨part,partListed,inside⟩ := List.mem_flatten.mp below
      obtain ⟨top,-,here⟩ := related_left each partListed
      exact List.mem_cons_of_mem _ (List.mem_flatten.mpr ⟨part,partListed,(ih here).2 p inside c child⟩)

theorem WellFormed.depth_lt {t : SupervisorTree} (wf : WellFormed t) {id : ActorId} {n : Nat}
    (depth : Depth (parentOf t) t.root id n) : n < t.supervisors.keys.length :=
  depth.lt_length wf.rootParent wf.rootPresent (fun _ _ up => parentOf_present up)

/-- Below a node at depth `n` a well-formed tree is lower than its number of
    supervisors less `n`, so the recursion returns. -/
theorem collect_returns {t : SupervisorTree} (wf : WellFormed t) (depth : Nat) {id : ActorId} {n : Nat}
    (level : Depth (parentOf t) t.root id n) (enough : t.supervisors.keys.length ≤ n + depth) (result : List ActorId) :
    (t.collect_subtree_recursive depth id result).isSome := by
  induction depth generalizing id n result with
  | zero =>
    have := wf.depth_lt level
    omega
  | succ depth ih =>
    simp only [SupervisorTree.collect_subtree_recursive]
    cases found : t.supervisor_children.lookup id with
    | none => rfl
    | some children =>
      have each : ∀ c ∈ children, ∀ result, (t.collect_subtree_recursive depth c result).isSome := by
        intro c member result
        have up := (wf.linked id c).mp (by rw [childrenOf_found found]; exact member)
        exact ih (.link up level) (by omega) result
      simp only
      generalize result ++ [id] = acc
      clear found
      induction children generalizing acc with
      | nil => rfl
      | cons c children rest =>
        rw [List.foldlM_cons]
        obtain ⟨next,here⟩ := Option.isSome_iff_exists.mp (each c List.mem_cons_self acc)
        rw [here]
        exact rest (fun c member => each c (List.mem_cons_of_mem _ member)) next

theorem calculate_depth_returns {t : SupervisorTree} (wf : WellFormed t) (depth : Nat) {id : ActorId} {n : Nat}
    (level : Depth (parentOf t) t.root id n) (enough : t.supervisors.keys.length ≤ n + depth) (current_depth : Nat) :
    (t.calculate_depth depth id current_depth).isSome := by
  induction depth generalizing id n current_depth with
  | zero =>
    have := wf.depth_lt level
    omega
  | succ depth ih =>
    simp only [SupervisorTree.calculate_depth]
    cases found : t.supervisor_children.lookup id with
    | none => rfl
    | some children =>
      have each : ∀ c ∈ children, (t.calculate_depth depth c (current_depth + 1)).isSome := by
        intro c member
        have up := (wf.linked id c).mp (by rw [childrenOf_found found]; exact member)
        exact ih (.link up level) (by omega) _
      have all : (children.mapM (fun c => t.calculate_depth depth c (current_depth + 1))).isSome := by
        clear found
        induction children with
        | nil => rfl
        | cons c children rest =>
          obtain ⟨first,here⟩ := Option.isSome_iff_exists.mp (each c List.mem_cons_self)
          obtain ⟨others,there⟩ := Option.isSome_iff_exists.mp
            (rest (fun c member => each c (List.mem_cons_of_mem _ member)))
          simp [List.mapM_cons,here,there]
      obtain ⟨depths,here⟩ := Option.isSome_iff_exists.mp all
      simp [here]

/-- From any id at all, a bound of one more than the number of supervisors is
    never reached. -/
theorem recursions_return {t : SupervisorTree} (wf : WellFormed t) (id : ActorId) {bound : Nat}
    (enough : t.supervisors.keys.length < bound) :
    (∀ result, (t.collect_subtree_recursive bound id result).isSome) ∧
      ∀ current_depth, (t.calculate_depth bound id current_depth).isSome := by
  by_cases present : id ∈ t.supervisors.keys
  · obtain ⟨n,level⟩ := (wf.rooted id present).depth
    exact ⟨fun result => collect_returns wf bound level (by omega) result,
      fun current => calculate_depth_returns wf bound level (by omega) current⟩
  · have none : t.supervisor_children.lookup id = none := by
      refine AList.lookup_eq_none.mpr (fun member => present ((wf.sameKeys id).mpr (AList.mem_keys.mp member)))
    cases bound with
    | zero => omega
    | succ bound => simp [SupervisorTree.collect_subtree_recursive,SupervisorTree.calculate_depth,none]

theorem WellFormed.same_length {t : SupervisorTree} (wf : WellFormed t) :
    t.supervisor_children.keys.length = t.supervisors.keys.length :=
  (List.perm_ext_iff_of_nodup t.supervisor_children.keys_nodup t.supervisors.keys_nodup).mpr
    (fun id => (wf.sameKeys id).symm) |>.length_eq

theorem wellFormed_terminate {t : SupervisorTree} (wf : WellFormed t) (root_id : ActorId) :
    ∃ t' result, t.terminate_tree root_id = some (t',result) ∧ t'.root = t.root ∧ WellFormed t' ∧
      ∀ id ∈ t'.supervisors.keys, id ∈ t.supervisors.keys := by
  unfold SupervisorTree.terminate_tree
  split
  · exact ⟨t,_,rfl,rfl,wf,fun _ member => member⟩
  · have enough : t.supervisors.keys.length < t.supervisor_children.keys.length + 1 := by
      rw [wf.same_length]
      omega
    obtain ⟨ids,collected⟩ := Option.isSome_iff_exists.mp ((recursions_return wf root_id enough).1 [])
    rw [SupervisorTree.collect_subtree,collected]
    refine ⟨_,_,rfl,(remove_all _ ids).1,?_,?_⟩
    · have down : WellFormed { t with
          supervisors := ids.reverse.foldl SupervisorTree.shutdown_children t.supervisors } :=
        wf.congr rfl (shutdown_links t.supervisors ids.reverse) rfl
      exact wellFormed_remove down ids (collect_closed collected).2
    · intro id member
      rw [Dict.mem_keys_iff,(remove_all _ ids).2.1] at member
      obtain ⟨s,found⟩ := member
      split at found
      · cases found
      · have link := shutdown_links t.supervisors ids.reverse id
        rw [found] at link
        cases old : t.supervisors.lookup id with
        | none => rw [old] at link; cases link
        | some s => exact (Dict.mem_keys_iff ..).mpr ⟨s,old⟩

/-! ## Runs -/

/-- Every operation returns, keeps the shape and adds at most the id it mints. -/
theorem wellFormed_apply {t : SupervisorTree} (wf : WellFormed t) (op : TreeOp)
    (fresh : ∀ id ∈ op.minted, id ∉ t.supervisors.keys) :
    ∃ t', t.apply op = some t' ∧ t'.root = t.root ∧ WellFormed t' ∧
      ∀ id ∈ t'.supervisors.keys, id ∈ t.supervisors.keys ∨ id ∈ op.minted := by
  cases op with
  | add_supervisor parent strategy id =>
    refine ⟨_,rfl,?_,wellFormed_add wf parent strategy (fresh id rfl),?_⟩
    · unfold SupervisorTree.add_supervisor; split <;> rfl
    intro k member
    simp only [SupervisorTree.add_supervisor] at member
    split at member
    · exact .inl member
    · simp only [Dict.mem_keys_iff,Dict.lookup_insert_ite] at member ⊢
      by_cases own : k = id
      · exact .inr (by simp [TreeOp.minted,own])
      · exact .inl (by simpa [own] using member)
  | start_child_under supervisor spec id =>
    refine ⟨_,rfl,?_,?_,?_⟩ <;> simp only [SupervisorTree.start_child_under]
    · split <;> rfl
    · split
      · exact wf
      · exact wellFormed_modify wf _ _ (fun s => (apply_frame s (.start_child spec id)).2.2)
    · intro k member
      split at member
      · exact .inl member
      · exact .inl (by simpa using member)
  | terminate_tree root_id =>
    obtain ⟨t',result,returned,same,kept,old⟩ := wellFormed_terminate wf root_id
    exact ⟨t',by simp [SupervisorTree.apply,returned],same,kept,fun id member => .inl (old id member)⟩
  | handle_child_exit supervisor_id child_name reason now mint =>
    refine ⟨_,rfl,?_,?_,?_⟩ <;> simp only [SupervisorTree.handle_child_exit]
    · split <;> rfl
    · split
      · exact wf
      · exact wellFormed_modify wf _ _ (fun s => (apply_frame s (.handle_child_exit child_name reason now mint)).2.2)
    · intro k member
      split at member
      · exact .inl member
      · exact .inl (by simpa using member)
  | get_supervisor_mut id op =>
    refine ⟨_,rfl,rfl,wellFormed_modify wf id (·.apply op) (fun s => (apply_frame s op).2.2),?_⟩
    intro k member
    exact .inl (by simpa using member)

theorem wellFormed_run (root : ActorId) (strategy : SupervisionStrategy) (ops : List TreeOp)
    (distinct : (root :: ops.filterMap TreeOp.minted).Nodup) :
    ∃ t, (SupervisorTree.new root strategy).run ops = some t ∧ t.root = root ∧ WellFormed t ∧
      ∀ id ∈ t.supervisors.keys, id ∈ root :: ops.filterMap TreeOp.minted := by
  induction ops using List.reverseRecOn with
  | nil =>
    refine ⟨_,rfl,rfl,wellFormed_new root strategy,?_⟩
    intro id member
    simpa [SupervisorTree.new] using member
  | append_singleton ops op ih =>
    rw [List.filterMap_append,← List.cons_append] at distinct
    obtain ⟨before,-,apart⟩ := List.nodup_append.mp distinct
    obtain ⟨t,reached,sameRoot,wf,known⟩ := ih before
    have fresh : ∀ id ∈ op.minted, id ∉ t.supervisors.keys := by
      intro id minted member
      exact apart id (known id member) id (by simp [Option.mem_def.mp minted]) rfl
    obtain ⟨t',applied,root',wf',known'⟩ := wellFormed_apply wf op fresh
    refine ⟨t',?_,root'.trans sameRoot,wf',?_⟩
    · rw [SupervisorTree.run,List.foldlM_append]
      show Option.bind ((SupervisorTree.new root strategy).run ops) _ = _
      simp [reached,applied]
    · intro id member
      rw [List.filterMap_append,← List.cons_append]
      rcases known' id member with old | minted
      · exact List.mem_append_left _ (known id old)
      · exact List.mem_append_right _ (by simp [Option.mem_def.mp minted])

/-- In every run that mints distinct ids for its supervisors every operation
    returns, the maps and the parent fields describe one tree below the root, and
    both recursions return from any id within one more than the number of
    supervisors. -/
theorem tree_well_formed (root : ActorId) (strategy : SupervisionStrategy) (ops : List TreeOp)
    (distinct : (root :: ops.filterMap TreeOp.minted).Nodup) :
    ∃ t, (SupervisorTree.new root strategy).run ops = some t ∧ t.root = root ∧ WellFormed t ∧
      ∀ id bound, t.supervisors.keys.length < bound →
        (∀ result, (t.collect_subtree_recursive bound id result).isSome) ∧
        ∀ current_depth, (t.calculate_depth bound id current_depth).isSome := by
  obtain ⟨t,reached,same,wf,-⟩ := wellFormed_run root strategy ops distinct
  exact ⟨t,reached,same,wf,fun id _ enough => recursions_return wf id enough⟩

/-- Three levels, the middle one terminated with all below it. -/
def prunedMiddle : List TreeOp :=
  [.add_supervisor ⟨0⟩ .SimpleOneForOne ⟨1⟩,.add_supervisor ⟨1⟩ .SimpleOneForOne ⟨2⟩,
    .add_supervisor ⟨0⟩ .SimpleOneForOne ⟨3⟩,.terminate_tree ⟨1⟩]

theorem tree_well_formed_pruned :
    ∃ t, (SupervisorTree.new ⟨0⟩ .SimpleOneForOne).run prunedMiddle = some t ∧ WellFormed t ∧
      t.supervisors.keys = [⟨3⟩,⟨0⟩] := by
  obtain ⟨t,reached,-,wf,-⟩ := tree_well_formed ⟨0⟩ .SimpleOneForOne prunedMiddle (by decide)
  refine ⟨t,reached,wf,?_⟩
  have keys : ((SupervisorTree.new ⟨0⟩ .SimpleOneForOne).run prunedMiddle).map (·.supervisors.keys) =
      some [⟨3⟩,⟨0⟩] := by decide
  rw [reached] at keys
  exact Option.some.inj keys

end ActorKit.TreeShape
