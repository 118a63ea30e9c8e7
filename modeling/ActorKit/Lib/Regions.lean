import Mathlib.Data.List.Nodup
import Mathlib.Data.List.Flatten
import Mathlib.Data.List.Perm.Subperm
import Mathlib.Algebra.BigOperators.Group.List.Basic
import Mathlib.Algebra.GroupWithZero.Nat
import Mathlib.Tactic.Common

/-!
# Regions of an address space

A region is a start and a length. Regions that lie apart from each other inside
the first `bound` addresses have at most `bound` addresses together.
-/

namespace ActorKit

/-- The addresses from `offset` on, `size` of them. -/
structure Region where
  offset : Nat
  size : Nat
deriving DecidableEq, Repr

namespace Region

/-- Two regions have no address in common. -/
def Apart (a b : Region) : Prop := a.offset + a.size ≤ b.offset ∨ b.offset + b.size ≤ a.offset

theorem Apart.symm {a b : Region} (apart : Apart a b) : Apart b a := Or.symm apart

/-- A region may shrink in place. -/
theorem Apart.shrink {a b : Region} (apart : Apart a b) {size : Nat} (smaller : size ≤ a.size) :
    Apart ⟨a.offset,size⟩ b := by
  unfold Apart at apart ⊢
  simp only
  omega

/-- Regions are listed in any order. -/
theorem pairwise_perm {regions regions' : List Region} (same : regions.Perm regions')
    (apart : regions.Pairwise Apart) : regions'.Pairwise Apart :=
  (same.pairwise_iff Apart.symm).mp apart

theorem addresses_nodup {regions : List Region} (apart : regions.Pairwise Apart) :
    (regions.flatMap (fun r => List.range' r.offset r.size)).Nodup := by
  refine List.nodup_flatMap.mpr ⟨fun r _ => List.nodup_range',apart.imp ?_⟩
  intro a b disjoint
  refine List.disjoint_left.mpr (fun address here there => ?_)
  have := List.mem_range'_1.mp here
  have := List.mem_range'_1.mp there
  unfold Apart at disjoint
  omega

theorem sum_sizes_le {regions : List Region} {bound : Nat} (apart : regions.Pairwise Apart)
    (inside : ∀ r ∈ regions, r.offset + r.size ≤ bound) : (regions.map (·.size)).sum ≤ bound := by
  have within : regions.flatMap (fun r => List.range' r.offset r.size) ⊆ List.range bound := by
    intro address member
    obtain ⟨r,listed,here⟩ := List.mem_flatMap.mp member
    have := List.mem_range'_1.mp here
    have := inside r listed
    exact List.mem_range.mpr (by omega)
  have fewer := ((addresses_nodup apart).subperm within).length_le
  simpa [List.length_flatMap,Function.comp_def] using fewer

end Region
end ActorKit
