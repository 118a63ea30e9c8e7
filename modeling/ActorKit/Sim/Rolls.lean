import ActorKit.Sim.Faults
import Mathlib.Data.Set.Card
import Mathlib.Algebra.Order.Round
import Mathlib.Tactic.Linarith

/-!
# Events with a probability

`roll` compares 53 bits of a raw draw with a probability. The share of the raw draws
that let the event happen is the probability rounded up to a multiple of `2 ^ -53`,
and a probability that is not positive takes no draw.
-/

namespace ActorKit.Sim.Rolls
open ActorKit.sim

/-- Whether the event happens, for each raw draw. -/
def happens (p : ℚ) (x : UInt64) : Bool := 0 < p ∧ ((x.toNat / 2 ^ 11 : Nat) : ℚ) / 2 ^ 53 < p

theorem roll_eq (rng : SimRng) (p : ℚ) :
    rng.roll (.finite p) = (happens p rng.next_u64.1,if 0 < p then rng.next_u64.2 else rng) := by
  have order : (F64.finite p).le .zero = decide (p ≤ 0) := by
    rw [Bool.eq_iff_iff]
    simp [F64.le,F64.lt,F64.zero,le_iff_lt_or_eq]
  unfold SimRng.roll
  rw [order]
  by_cases positive : 0 < p
  · have above : ¬p ≤ 0 := not_le.mpr positive
    simp [happens,positive,above,SimRng.next_f64,F64.lt]
  · have below : p ≤ 0 := not_lt.mp positive
    simp [happens,positive,below]

/-- The raw draws below a number. -/
theorem ncard_below {n : Nat} (small : n ≤ 2 ^ 64) : {x : UInt64 | x.toNat < n}.ncard = n := by
  have image : UInt64.toNat '' {x : UInt64 | x.toNat < n} = (Finset.range n : Set Nat) := by
    ext k
    constructor
    · rintro ⟨x,below,rfl⟩
      simpa using below
    · intro below
      have below : k < n := by simpa using below
      have raw : (UInt64.ofNat k).toNat = k := by rw [UInt64.toNat_ofNat',Nat.mod_eq_of_lt (by omega)]
      exact ⟨.ofNat k,by rw [Set.mem_ofPred_eq,raw]; exact below,raw⟩
  rw [← Set.ncard_image_of_injective _ (fun x y => UInt64.toNat_inj.mp),image,Set.ncard_coe_finset,Finset.card_range]

/-- How many of the `2 ^ 53` values let the event happen. -/
def hits (p : ℚ) : Nat := min ⌈p * 2 ^ 53⌉.toNat (2 ^ 53)

theorem happens_iff (p : ℚ) (x : UInt64) : happens p x = true ↔ x.toNat < hits p * 2 ^ 11 := by
  have raw := x.toNat_lt
  have part : x.toNat / 2 ^ 11 < 2 ^ 53 := by omega
  have value : ((x.toNat / 2 ^ 11 : Nat) : ℚ) / 2 ^ 53 < p ↔ x.toNat / 2 ^ 11 < ⌈p * 2 ^ 53⌉.toNat := by
    rw [div_lt_iff₀ (by norm_num),Int.lt_toNat,Int.lt_ceil]
    norm_cast
  have positive : x.toNat / 2 ^ 11 < ⌈p * 2 ^ 53⌉.toNat → 0 < p := by
    intro below
    have above : 0 < ⌈p * 2 ^ 53⌉ := by omega
    have product : 0 < p * 2 ^ 53 := Int.ceil_pos.mp above
    linarith
  rw [happens,decide_eq_true_eq,value,← Nat.div_lt_iff_lt_mul (by norm_num),hits]
  constructor
  · rintro ⟨-,below⟩
    omega
  · intro below
    have below : x.toNat / 2 ^ 11 < ⌈p * 2 ^ 53⌉.toNat := by omega
    exact ⟨positive below,below⟩

/-- An event happens for as many raw draws as its probability rounded up to 53 bits
    says, so its share of the draws misses the probability by less than one in
    `2 ^ 53`. Exactly the events that can happen take a draw. -/
theorem roll_calibrated (p : ℚ) : ∃ event : UInt64 → Bool,
    (∀ rng : SimRng, rng.roll (.finite p) = (event rng.next_u64.1,if 0 < p then rng.next_u64.2 else rng)) ∧
    {x | event x = true}.ncard = min ⌈p * 2 ^ 53⌉.toNat (2 ^ 53) * 2 ^ 11 ∧
    (0 ≤ p → p ≤ 1 → p ≤ {x | event x = true}.ncard / 2 ^ 64 ∧
      ({x | event x = true}.ncard : ℚ) / 2 ^ 64 < p + 1 / 2 ^ 53) := by
  have count : {x | happens p x = true}.ncard = hits p * 2 ^ 11 := by
    have same : {x | happens p x = true} = {x : UInt64 | x.toNat < hits p * 2 ^ 11} := by
      ext x
      exact happens_iff p x
    have few : hits p ≤ 2 ^ 53 := Nat.min_le_right ..
    rw [same,ncard_below (by omega)]
  refine ⟨happens p,fun rng => roll_eq rng p,count,?_⟩
  intro nonneg small
  rw [count]
  have top : ⌈p * 2 ^ 53⌉ ≤ 2 ^ 53 := by
    rw [Int.ceil_le]
    push_cast
    linarith
  have bottom : 0 ≤ ⌈p * 2 ^ 53⌉ := Int.ceil_nonneg (by positivity)
  have exact_ : ((hits p : Nat) : ℚ) = ⌈p * 2 ^ 53⌉ := by
    have whole : ((hits p : Nat) : Int) = ⌈p * 2 ^ 53⌉ := by
      simp only [hits]
      omega
    exact_mod_cast whole
  have share : ((hits p * 2 ^ 11 : Nat) : ℚ) / 2 ^ 64 = ⌈p * 2 ^ 53⌉ / 2 ^ 53 := by
    rw [Nat.cast_mul,exact_]
    push_cast
    ring
  have above := Int.le_ceil (p * 2 ^ 53)
  have below := Int.ceil_lt_add_one (p * 2 ^ 53)
  rw [share]
  constructor
  · rw [le_div_iff₀ (by norm_num)]
    exact above
  · rw [div_lt_iff₀ (by norm_num)]
    calc (⌈p * 2 ^ 53⌉ : ℚ) < p * 2 ^ 53 + 1 := below
      _ = (p + 1 / 2 ^ 53) * 2 ^ 53 := by ring

/-- A tenth, the share of the sends that `inject_one` makes urgent. -/
theorem roll_calibrated_tenth : ∃ event : UInt64 → Bool,
    (∀ rng : SimRng, (rng.roll (.finite (1 / 10))).1 = event rng.next_u64.1) ∧
    (1 / 10 : ℚ) ≤ {x | event x = true}.ncard / 2 ^ 64 := by
  obtain ⟨event,rolled,-,close⟩ := roll_calibrated (1 / 10)
  exact ⟨event,fun rng => by rw [rolled],(close (by norm_num) (by norm_num)).1⟩

end ActorKit.Sim.Rolls
