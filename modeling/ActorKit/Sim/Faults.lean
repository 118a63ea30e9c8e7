import Mathlib.Data.Rat.Floor
import ActorKit.Basic
import ActorKit.Lib.Program

/-!
# Fault schedules and draws

The model of `sim/faults.rs`. The generator is a stream of 64-bit draws and how
many of them are taken; nothing else about it is used. Checked arithmetic and
debug assertions behave as in the profile the tests run in: they panic.
-/

namespace ActorKit.sim
open ActorKit.Program (bind_ok bind_error)

/-- Why the simulation panics. -/
inductive Failure where
  /-- An assertion of an audit. -/
  | Assert (message : String)
  | DebugAssert (message : String)
  | Expect (message : String)
  | IndexOutOfBounds
  /-- A subtraction below zero. -/
  | Underflow
  /-- A sum or a product above `u64::MAX`. -/
  | Overflow
  /-- A loop that is still running after the turns the model gives it. -/
  | Diverges
deriving DecidableEq, Repr

/-- The result of an addition or a multiplication of `u64`s. -/
def checked (n : Nat) : Except Failure Nat := if n < 2 ^ 64 then .ok n else .error .Overflow

/-- A subtraction of `u64`s. -/
def subtract (n m : Nat) : Except Failure Nat := if m ≤ n then .ok (n - m) else .error .Underflow

/-! ## Floating point -/

/-- A value of type `f64`. A finite one is the rational it stands for. -/
inductive F64 where
  | nan
  | infinite (negative : Bool)
  | finite (value : ℚ)
deriving DecidableEq, Repr

namespace F64

def lt : F64 → F64 → Bool
  | .finite x,.finite y => x < y
  | .infinite true,.infinite false => true
  | .infinite true,.finite _ => true
  | .finite _,.infinite false => true
  | _,_ => false

def le (x y : F64) : Bool := x.lt y || (x == y && x != .nan)

/-- `f64::max`: an operand that is not a number is ignored. -/
def max : F64 → F64 → F64
  | .nan,y => y
  | x,.nan => x
  | x,y => if x.lt y then y else x

/-- `as u64`: towards zero, and to the nearest bound outside the range. -/
def as_u64 : F64 → Nat
  | .nan => 0
  | .infinite negative => if negative then 0 else 2 ^ 64 - 1
  | .finite x => min ⌊x⌋.toNat (2 ^ 64 - 1)

/-- `as f64` of a `u64`: 53 significant bits, ties to even. -/
def of_u64 (n : Nat) : F64 :=
  let unit := 2 ^ (n.log2 - 52)
  let low := n / unit
  let rest := n % unit
  let rounded := if 2 * rest < unit ∨ 2 * rest = unit ∧ low % 2 = 0 then low else low + 1
  .finite (rounded * unit)

/-- Subtraction. The one use subtracts the integer part of a value, which is
    exact below `2 ^ 65`; above only that the result is at least one is used. -/
def sub : F64 → F64 → F64
  | .finite x,.finite y => .finite (x - y)
  | .infinite a,.infinite b => if a = b then .nan else .infinite a
  | .infinite a,.finite _ => .infinite a
  | .finite _,.infinite b => .infinite !b
  | _,_ => .nan

def zero : F64 := .finite 0

end F64

/-- Fault probabilities for a simulation run. -/
structure FaultConfig where
  send_reject_prob : F64 := .zero
  delay_prob : F64 := .zero
  delay_ticks_min : UInt64 := 1
  delay_ticks_max : UInt64 := 8
  duplicate_prob : F64 := .zero
  crash_prob : F64 := .zero
deriving DecidableEq, Repr

/-! ## Draws -/

/-- The single stream of draws. -/
structure SimRng where
  draws : Nat → UInt64
  drawn : Nat := 0

namespace SimRng

/-- Next raw `u64`. -/
def next_u64 (rng : SimRng) : UInt64 × SimRng := (rng.draws rng.drawn,{ rng with drawn := rng.drawn + 1 })

/-- Uniform `f64` in `[0, 1)`. -/
def next_f64 (rng : SimRng) : F64 × SimRng :=
  let (x,rng) := rng.next_u64
  (.finite ((x.toNat / 2 ^ 11 : Nat) / 2 ^ 53),rng)

/-- Uniform `u64` in `[0, n)`. -/
def below (rng : SimRng) (n : Nat) : Except Failure (Nat × SimRng) :=
  if n = 0 then .error (.DebugAssert "n > 0")
  else
    let (x,rng) := rng.next_u64
    .ok (x.toNat * n / 2 ^ 64,rng)

/-- Uniform `u64` in `[lo, hi]`. -/
def range (rng : SimRng) (lo hi : Nat) : Except Failure (Nat × SimRng) :=
  if hi ≤ lo then .ok (lo,rng)
  else do
    let width ← checked (hi - lo + 1)
    let (k,rng) ← rng.below width
    let value ← checked (lo + k)
    .ok (value,rng)

/-- Draw an event with probability `p`; no draw is taken unless `p` is
    positive. -/
def roll (rng : SimRng) (p : F64) : Bool × SimRng :=
  if p.le .zero then (false,rng)
  else
    let (x,rng) := rng.next_f64
    (x.lt p,rng)

end SimRng

theorem below_lt {rng rng' : SimRng} {n k : Nat} (drawn : rng.below n = .ok (k,rng')) : k < n := by
  unfold SimRng.below at drawn
  split at drawn
  · cases drawn
  · cases drawn
    have bounded := (rng.draws rng.drawn).toNat_lt
    rw [Nat.div_lt_iff_lt_mul (by decide),Nat.mul_comm n]
    exact Nat.mul_lt_mul_of_pos_right bounded (by omega)

theorem checked_error {n : Nat} {failure : Failure} (failed : checked n = .error failure) : failure = .Overflow := by
  unfold checked at failed
  split at failed <;> cases failed
  rfl

theorem checked_ok {n m : Nat} (fits : checked n = .ok m) : m = n := by
  unfold checked at fits
  split at fits <;> cases fits
  rfl

theorem subtract_ok {n m k : Nat} (positive : subtract n m = .ok k) : k = n - m := by
  unfold subtract at positive
  split at positive <;> cases positive
  rfl

theorem below_ok (rng : SimRng) {n : Nat} (positive : 0 < n) : ∃ draw, rng.below n = .ok draw := by
  unfold SimRng.below
  rw [if_neg (by omega)]
  exact ⟨_,rfl⟩

theorem checked_fits {n : Nat} {failure : Failure} (fits : n < 2 ^ 64) : checked n ≠ .error failure := by
  unfold checked
  rw [if_pos fits]
  exact fun same => by cases same

theorem range_fits {rng : SimRng} {lo hi : Nat} {failure : Failure} (fits : hi + 1 < 2 ^ 64) :
    rng.range lo hi ≠ .error failure := by
  intro failed
  unfold SimRng.range at failed
  split at failed
  · cases failed
  · rcases bind_error failed with wide | ⟨width,sum,failed⟩
    · exact checked_fits (by omega) wide
    · obtain ⟨draw,drawn⟩ := below_ok rng (n := width) (by rw [checked_ok sum]; omega)
      rcases bind_error failed with missing | ⟨⟨k,rng'⟩,drawn',failed⟩
      · rw [drawn] at missing
        cases missing
      · have small := below_lt drawn'
        rw [checked_ok sum] at small
        rcases bind_error failed with high | ⟨value,-,failed⟩
        · exact checked_fits (by omega) high
        · cases failed

theorem range_mem {rng rng' : SimRng} {lo hi k : Nat} (order : lo ≤ hi) (drawn : rng.range lo hi = .ok (k,rng')) :
    lo ≤ k ∧ k ≤ hi := by
  unfold SimRng.range at drawn
  split at drawn
  · cases drawn
    omega
  · obtain ⟨width,fits,drawn⟩ := bind_ok drawn
    obtain ⟨⟨offset,rest⟩,below,drawn⟩ := bind_ok drawn
    obtain ⟨value,sum,drawn⟩ := bind_ok drawn
    cases drawn
    have small := below_lt below
    rw [checked_ok fits] at small
    rw [checked_ok sum]
    omega

theorem range_le {rng rng' : SimRng} {lo hi k : Nat} (drawn : rng.range lo hi = .ok (k,rng')) : k ≤ max lo hi := by
  by_cases order : lo ≤ hi
  · have bounds := range_mem order drawn
    omega
  · unfold SimRng.range at drawn
    rw [if_pos (by omega)] at drawn
    cases drawn
    omega

theorem le_range {rng rng' : SimRng} {lo hi k : Nat} (drawn : rng.range lo hi = .ok (k,rng')) : lo ≤ k := by
  by_cases order : lo ≤ hi
  · exact (range_mem order drawn).1
  · unfold SimRng.range at drawn
    rw [if_pos (by omega)] at drawn
    cases drawn
    exact Nat.le_refl _

theorem roll_zero (rng : SimRng) {p : F64} (zero : p = .zero) : rng.roll p = (false,rng) := by
  subst zero
  rfl

end ActorKit.sim
