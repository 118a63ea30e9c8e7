import Mathlib.Algebra.Order.Floor.Div
import Mathlib.Data.Set.Card
import Mathlib.Order.Interval.Finset.Nat
import Mathlib.Algebra.Order.Ring.Nat
import Mathlib.Tactic.Common

/-!
# Scaling a draw

Multiplying a number below `m` by `n` and dividing by `m` spreads the numbers below
`m` over those below `n`: in order, and as evenly as the two allow.
-/

namespace ActorKit.Scaling

/-- The number below `n` that a number below `m` is scaled to. -/
def scale (m n x : Nat) : Nat := x * n / m

/-- The least number that is scaled to `v` or more. -/
def first (m n v : Nat) : Nat := v * m ⌈/⌉ n

variable {m n v x : Nat}

theorem scale_lt (below : x < m) (positive : 0 < n) : scale m n x < n := by
  rw [scale,Nat.div_lt_iff_lt_mul (by omega),Nat.mul_comm n]
  exact Nat.mul_lt_mul_of_pos_right below positive

theorem scale_mono {y : Nat} (order : x ≤ y) : scale m n x ≤ scale m n y :=
  Nat.div_le_div_right (Nat.mul_le_mul_right n order)

theorem le_scale_iff (inhabited : 0 < m) (positive : 0 < n) : v ≤ scale m n x ↔ first m n v ≤ x := by
  rw [scale,Nat.le_div_iff_mul_le inhabited,first,ceilDiv_le_iff_le_mul positive,Nat.mul_comm n]

theorem scale_eq_iff (inhabited : 0 < m) (positive : 0 < n) :
    scale m n x = v ↔ first m n v ≤ x ∧ x < first m n (v + 1) := by
  rw [← le_scale_iff inhabited positive,← Nat.not_le,← le_scale_iff inhabited positive]
  omega

/-- The first number of the next value is at most `m`. -/
theorem first_le (positive : 0 < n) (small : v ≤ n) : first m n v ≤ m := by
  rw [first,ceilDiv_le_iff_le_mul positive]
  exact Nat.mul_le_mul_right m small

/-- Each value has at least the rounded down share of the numbers. -/
theorem floor_le_gap (positive : 0 < n) : first m n v + m / n ≤ first m n (v + 1) := by
  have reached : (v + 1) * m ≤ n * first m n (v + 1) := (ceilDiv_le_iff_le_mul positive).mp (Nat.le_refl _)
  have share : n * (m / n) ≤ m := Nat.mul_div_le m n
  have fits : m / n ≤ first m n (v + 1) := by
    have whole : m ≤ n * first m n (v + 1) := by
      rw [Nat.succ_mul] at reached
      omega
    exact Nat.div_le_of_le_mul whole
  have start : first m n v ≤ first m n (v + 1) - m / n := by
    rw [first,ceilDiv_le_iff_le_mul positive,Nat.mul_sub]
    rw [Nat.succ_mul] at reached
    omega
  omega

/-- Each value has at most the rounded up share of the numbers. -/
theorem gap_le_ceil (positive : 0 < n) : first m n (v + 1) ≤ first m n v + m ⌈/⌉ n := by
  have start : v * m ≤ n * first m n v := (ceilDiv_le_iff_le_mul positive).mp (Nat.le_refl _)
  have share : m ≤ n * (m ⌈/⌉ n) := (ceilDiv_le_iff_le_mul positive).mp (Nat.le_refl _)
  change (v + 1) * m ⌈/⌉ n ≤ _
  rw [ceilDiv_le_iff_le_mul positive,Nat.mul_add,Nat.succ_mul]
  omega

theorem ceil_le_floor (positive : 0 < n) : m ⌈/⌉ n ≤ m / n + 1 := by
  rw [ceilDiv_le_iff_le_mul positive,Nat.mul_add]
  have parts := Nat.div_add_mod m n
  have rest := Nat.mod_lt m positive
  omega

/-- The numbers scaled to one value. -/
theorem scaled_to (inhabited : 0 < m) (positive : 0 < n) (small : v < n) :
    {x | x < m ∧ scale m n x = v} = (Finset.Ico (first m n v) (first m n (v + 1)) : Set Nat) := by
  ext x
  have last : first m n (v + 1) ≤ m := first_le positive small
  simp only [Set.mem_ofPred_eq,Finset.coe_Ico,Set.mem_Ico,scale_eq_iff inhabited positive]
  omega

/-- Every value has the rounded down or the rounded up share of the numbers. -/
theorem ncard_scaled_to (inhabited : 0 < m) (positive : 0 < n) (small : v < n) :
    {x | x < m ∧ scale m n x = v}.ncard = m / n ∨ {x | x < m ∧ scale m n x = v}.ncard = m ⌈/⌉ n := by
  rw [scaled_to inhabited positive small,Set.ncard_coe_finset,Nat.card_Ico]
  have least : first m n v + m / n ≤ first m n (v + 1) := floor_le_gap positive
  have most : first m n (v + 1) ≤ first m n v + m ⌈/⌉ n := gap_le_ceil positive
  have close : m ⌈/⌉ n ≤ m / n + 1 := ceil_le_floor positive
  omega

/-- Every value is reached when there are numbers enough. -/
theorem scale_reaches (enough : n ≤ m) (small : v < n) : ∃ x, x < m ∧ scale m n x = v := by
  have positive : 0 < n := by omega
  have inhabited : 0 < m := by omega
  have share : 0 < m / n := Nat.div_pos enough positive
  have gap : first m n v + m / n ≤ first m n (v + 1) := floor_le_gap positive
  have last : first m n (v + 1) ≤ m := first_le positive small
  exact ⟨first m n v,by omega,(scale_eq_iff inhabited positive).mpr ⟨Nat.le_refl _,by omega⟩⟩

end ActorKit.Scaling
