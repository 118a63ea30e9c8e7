import Mathlib.Logic.Relation
import Mathlib.Data.List.Nodup
import Mathlib.Data.List.Perm.Subperm

/-!
# Parent links

A partial function that gives every node its parent, and one node without a
parent. A node that reaches the root has exactly one depth, and the nodes above
it are distinct, so a finite set of nodes bounds every depth.
-/

namespace ActorKit.Forest
variable {α : Type}

/-- The node reaches the root over its parent links. -/
def Reaches (parent : α → Option α) (node root : α) : Prop :=
  Relation.ReflTransGen (fun child above => parent child = some above) node root

/-- The number of parent links from a node to the root. -/
inductive Depth (parent : α → Option α) (root : α) : α → Nat → Prop where
  | top : Depth parent root root 0
  | link {child above : α} {n : Nat} (up : parent child = some above) (rest : Depth parent root above n) :
      Depth parent root child (n + 1)

variable {parent : α → Option α} {root : α}

theorem Reaches.depth {node : α} (reaches : Reaches parent node root) : ∃ n, Depth parent root node n := by
  induction reaches using Relation.ReflTransGen.head_induction_on with
  | refl => exact ⟨0,.top⟩
  | head up _ ih =>
    obtain ⟨n,rest⟩ := ih
    exact ⟨n + 1,.link up rest⟩

theorem Depth.unique (noParent : parent root = none) {node : α} {m n : Nat} (first : Depth parent root node m)
    (second : Depth parent root node n) : m = n := by
  induction first generalizing n with
  | top =>
    cases second with
    | top => rfl
    | link up _ => rw [noParent] at up; cases up
  | link up _ ih =>
    cases second with
    | top => rw [noParent] at up; cases up
    | link other rest =>
      rw [up] at other
      cases other
      rw [ih rest]

/-- The nodes from a node up to the root are distinct. -/
theorem Depth.path (noParent : parent root = none) {node : α} {n : Nat} (depth : Depth parent root node n) :
    ∃ path : List α, path.length = n + 1 ∧ path.Nodup ∧ ∀ x ∈ path, ∃ m ≤ n, Depth parent root x m := by
  induction depth with
  | top =>
    refine ⟨[root],rfl,List.nodup_singleton _,?_⟩
    intro x member
    cases List.mem_singleton.mp member
    exact ⟨0,Nat.le_refl _,.top⟩
  | @link child above n up rest ih =>
    obtain ⟨path,size,distinct,depths⟩ := ih
    refine ⟨child :: path,by simp [size],List.nodup_cons.mpr ⟨?_,distinct⟩,?_⟩
    · intro member
      obtain ⟨m,small,depth⟩ := depths child member
      have := depth.unique noParent (.link up rest)
      omega
    · intro x member
      rcases List.mem_cons.mp member with rfl | above
      · exact ⟨n + 1,Nat.le_refl _,.link up rest⟩
      · obtain ⟨m,small,depth⟩ := depths x above
        exact ⟨m,by omega,depth⟩

theorem Depth.lt_length (noParent : parent root = none) {nodes : List α} (rootListed : root ∈ nodes)
    (listed : ∀ child above, parent child = some above → child ∈ nodes) {node : α} {n : Nat}
    (depth : Depth parent root node n) : n < nodes.length := by
  obtain ⟨path,size,distinct,depths⟩ := depth.path noParent
  have subset : path ⊆ nodes := by
    intro x member
    obtain ⟨_,-,depth⟩ := depths x member
    cases depth with
    | top => exact rootListed
    | link up _ => exact listed _ _ up
  have := (List.subperm_of_subset distinct subset).length_le
  omega

/-- The links to a node and those above it. -/
theorem Depth.append {node middle : α} {m n : Nat} (below : Depth parent middle node m)
    (above : Depth parent root middle n) : Depth parent root node (m + n) := by
  induction below with
  | top => simpa using above
  | @link child next m up _ ih =>
    rw [Nat.succ_add]
    exact .link up ih

/-- The last link of a path to a node. -/
theorem Depth.last {node : α} {n : Nat} (depth : Depth parent root node (n + 1)) :
    ∃ top, parent top = some root ∧ Depth parent top node n := by
  induction n generalizing node with
  | zero =>
    cases depth with
    | link up rest =>
      cases rest
      exact ⟨node,up,.top⟩
  | succ n ih =>
    cases depth with
    | link up rest =>
      obtain ⟨top,link,below⟩ := ih rest
      exact ⟨top,link,.link up below⟩

/-- What a node reaches by a number of links. -/
theorem Depth.target {node top top' : α} {n : Nat} (depth : Depth parent top node n)
    (depth' : Depth parent top' node n) : top = top' := by
  induction depth with
  | top =>
    cases depth'
    rfl
  | link up _ ih =>
    cases depth' with
    | link up' rest' =>
      rw [up] at up'
      cases up'
      exact ih rest'

/-- A node has at most one node above it at each depth. -/
theorem Depth.same_level (noParent : parent root = none) {node a b : α} {n : Nat} (belowA : Reaches parent node a)
    (belowB : Reaches parent node b) (depthA : Depth parent root a n) (depthB : Depth parent root b n) : a = b := by
  obtain ⟨m,pathA⟩ := belowA.depth
  obtain ⟨m',pathB⟩ := belowB.depth
  have same := (pathA.append depthA).unique noParent (pathB.append depthB)
  obtain rfl : m = m' := by omega
  exact pathA.target pathB

/-- A node is not above its parent. -/
theorem Depth.not_above (noParent : parent root = none) {node above below : α} {n : Nat} (depth : Depth parent root above n)
    (up : parent node = some above) (inside : Reaches parent below node) : ¬ Reaches parent above below := by
  intro around
  obtain ⟨m,path⟩ := inside.depth
  obtain ⟨m',back⟩ := around.depth
  have circle := back.append (path.append (.link up depth))
  have same := circle.unique noParent depth
  omega

end ActorKit.Forest
