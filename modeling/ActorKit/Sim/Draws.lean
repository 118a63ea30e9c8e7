import ActorKit.Lib.Scaling
import ActorKit.Sim.Faults

/-!
# Bounded draws

A bounded draw scales one raw draw. Every value below the bound is equally likely
up to a single raw draw, and an interval is covered without an overflow.
-/

namespace ActorKit.Sim.Draws
open ActorKit.sim ActorKit.Scaling

/-- The value of a bounded draw for each raw draw. -/
def valueOf (n : Nat) (x : UInt64) : Nat := scale (2 ^ 64) n x.toNat

theorem below_eq (rng : SimRng) {n : Nat} (positive : 0 < n) :
    rng.below n = .ok (valueOf n rng.next_u64.1,rng.next_u64.2) := by
  rw [SimRng.below,if_neg (by omega)]
  rfl

theorem valueOf_lt {n : Nat} (positive : 0 < n) (x : UInt64) : valueOf n x < n := scale_lt x.toNat_lt positive

theorem valueOf_mono (n : Nat) {x y : UInt64} (order : x ≤ y) : valueOf n x ≤ valueOf n y :=
  scale_mono (UInt64.le_iff_toNat_le.mp order)

/-- Raw draws are counted as numbers below `2 ^ 64`. -/
theorem ncard_valueOf (n v : Nat) :
    {x : UInt64 | valueOf n x = v}.ncard = {x | x < 2 ^ 64 ∧ scale (2 ^ 64) n x = v}.ncard := by
  have image : UInt64.toNat '' {x : UInt64 | valueOf n x = v} = {x | x < 2 ^ 64 ∧ scale (2 ^ 64) n x = v} := by
    ext x
    constructor
    · rintro ⟨raw,drawn,rfl⟩
      exact ⟨raw.toNat_lt,drawn⟩
    · rintro ⟨small,scaled⟩
      have raw : (UInt64.ofNat x).toNat = x := by rw [UInt64.toNat_ofNat',Nat.mod_eq_of_lt small]
      refine ⟨.ofNat x,?_,raw⟩
      rw [Set.mem_ofPred_eq,valueOf,raw,scaled]
  rw [← image,Set.ncard_image_of_injective _ (fun x y => UInt64.toNat_inj.mp)]

/-- The value of a draw from an interval for each raw draw. -/
def valueWithin (lo hi : Nat) (x : UInt64) : Nat := if hi ≤ lo then lo else lo + valueOf (hi - lo + 1) x

theorem range_eq (rng : SimRng) {lo hi : Nat} (top : hi < 2 ^ 64) (narrow : hi - lo < 2 ^ 64 - 1) :
    (rng.range lo hi).map Prod.fst = .ok (valueWithin lo hi rng.next_u64.1) := by
  rw [SimRng.range,valueWithin]
  by_cases single : hi ≤ lo
  · rw [if_pos single,if_pos single]
    rfl
  · have inside := valueOf_lt (n := hi - lo + 1) (by omega) rng.next_u64.1
    have width : checked (hi - lo + 1) = .ok (hi - lo + 1) := if_pos (by omega)
    have sum : checked (lo + valueOf (hi - lo + 1) rng.next_u64.1) = .ok (lo + valueOf (hi - lo + 1) rng.next_u64.1) :=
      if_pos (by omega)
    rw [if_neg single,if_neg single]
    simp only [width,bind,Except.bind,below_eq rng (n := hi - lo + 1) (by omega),sum,Except.map]

theorem valueWithin_mem {lo hi : Nat} (order : lo ≤ hi) (x : UInt64) :
    lo ≤ valueWithin lo hi x ∧ valueWithin lo hi x ≤ hi := by
  rw [valueWithin]
  by_cases single : hi ≤ lo
  · rw [if_pos single]
    omega
  · have inside := valueOf_lt (n := hi - lo + 1) (by omega) x
    rw [if_neg single]
    omega

theorem valueWithin_reaches {lo hi k : Nat} (narrow : hi - lo < 2 ^ 64 - 1) (above : lo ≤ k) (below : k ≤ hi) :
    ∃ x, valueWithin lo hi x = k := by
  by_cases single : hi ≤ lo
  · refine ⟨0,?_⟩
    rw [valueWithin,if_pos single]
    omega
  · have small : k - lo < hi - lo + 1 := by omega
    obtain ⟨x,raw,scaled⟩ := scale_reaches (m := 2 ^ 64) (by omega) small
    refine ⟨.ofNat x,?_⟩
    rw [valueWithin,if_neg single,valueOf,UInt64.toNat_ofNat',Nat.mod_eq_of_lt raw,scaled]
    omega

/-- Bounded draws are in range, in the order of the raw draws and balanced, and
    draws from an interval reach all of it without an overflow. -/
theorem draws_balanced :
    (∀ n : UInt64, 0 < n → ∃ value : UInt64 → Nat,
      (∀ rng : SimRng, rng.below n.toNat = .ok (value rng.next_u64.1,rng.next_u64.2)) ∧
      (∀ x, value x < n.toNat) ∧ (∀ x y, x ≤ y → value x ≤ value y) ∧
      ∀ v < n.toNat, {x | value x = v}.ncard = 2 ^ 64 / n.toNat ∨ {x | value x = v}.ncard = 2 ^ 64 ⌈/⌉ n.toNat) ∧
    ∀ lo hi : UInt64, lo ≤ hi → hi.toNat - lo.toNat < 2 ^ 64 - 1 → ∃ value : UInt64 → Nat,
      (∀ rng : SimRng, (rng.range lo.toNat hi.toNat).map Prod.fst = .ok (value rng.next_u64.1)) ∧
      (∀ x, lo.toNat ≤ value x ∧ value x ≤ hi.toNat) ∧
      ∀ k, lo.toNat ≤ k → k ≤ hi.toNat → ∃ x, value x = k := by
  constructor
  · intro n positive
    have positive : 0 < n.toNat := UInt64.lt_iff_toNat_lt.mp positive
    refine ⟨valueOf n.toNat,fun rng => below_eq rng positive,valueOf_lt positive,
      fun x y => valueOf_mono n.toNat,fun v small => ?_⟩
    rw [ncard_valueOf]
    exact ncard_scaled_to (by decide) positive small
  · intro lo hi order narrow
    have order : lo.toNat ≤ hi.toNat := UInt64.le_iff_toNat_le.mp order
    exact ⟨valueWithin lo.toNat hi.toNat,fun rng => range_eq rng hi.toNat_lt narrow,valueWithin_mem order,
      fun k => valueWithin_reaches narrow⟩

end ActorKit.Sim.Draws
