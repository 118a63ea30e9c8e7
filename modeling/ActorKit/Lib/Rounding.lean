import Mathlib.Data.Int.Log
import Mathlib.Data.Rat.Floor
import Mathlib.Tactic.Linarith
import Mathlib.Tactic.Positivity
import Mathlib.Tactic.FieldSimp
import Mathlib.Tactic.GCongr

/-!
# Binary floating point

The finite values of a binary format are rationals. Every operation rounds the
exact result to the nearest value, to the even one of two; what is too large
becomes infinite, and what is too small keeps fewer digits. Rounding keeps the
order and leaves a value alone that the format has.
-/

namespace ActorKit.Rounding

/-! ## Nearest whole numbers -/

/-- The nearest whole number, the even one of two. -/
def nearest (x : ℚ) : ℤ :=
  if x - ⌊x⌋ < 1 / 2 ∨ x - ⌊x⌋ = 1 / 2 ∧ ⌊x⌋ % 2 = 0 then ⌊x⌋ else ⌊x⌋ + 1

variable {x y : ℚ}

@[simp] theorem nearest_intCast (n : ℤ) : nearest n = n := by
  simp [nearest]

theorem floor_le_nearest (x : ℚ) : ⌊x⌋ ≤ nearest x := by
  unfold nearest
  split <;> omega

theorem nearest_le_floor (x : ℚ) : nearest x ≤ ⌊x⌋ + 1 := by
  unfold nearest
  split <;> omega

theorem nearest_mono (order : x ≤ y) : nearest x ≤ nearest y := by
  rcases (Int.floor_mono order).lt_or_eq with below | same
  · have upper := nearest_le_floor x
    have lower := floor_le_nearest y
    omega
  · unfold nearest
    rw [same]
    by_cases stays : y - ⌊y⌋ < 1 / 2 ∨ y - ⌊y⌋ = 1 / 2 ∧ ⌊y⌋ % 2 = 0
    · have less : x - ⌊y⌋ < 1 / 2 ∨ x - ⌊y⌋ = 1 / 2 ∧ ⌊y⌋ % 2 = 0 := by
        rcases stays with small | ⟨half,even⟩
        · exact .inl (by linarith)
        · rcases (show x - ⌊y⌋ ≤ 1 / 2 by linarith).lt_or_eq with small | half'
          · exact .inl small
          · exact .inr ⟨half',even⟩
      rw [if_pos stays,if_pos less]
    · rw [if_neg stays]
      split <;> omega

theorem nearest_le {n : ℤ} (order : x ≤ n) : nearest x ≤ n := by
  have kept := nearest_mono order
  rwa [nearest_intCast] at kept

theorem le_nearest {n : ℤ} (order : n ≤ x) : n ≤ nearest x := by
  have kept := nearest_mono order
  rwa [nearest_intCast] at kept

/-- Rounding moves a number by a half at most. -/
theorem nearest_close (x : ℚ) : |nearest x - x| ≤ 1 / 2 := by
  have lower := Int.floor_le x
  have upper := Int.lt_floor_add_one x
  unfold nearest
  split
  · next stays =>
    have half : x - ⌊x⌋ ≤ 1 / 2 := by
      rcases stays with small | ⟨half,-⟩
      · exact small.le
      · exact half.le
    rw [abs_le]
    constructor <;> linarith
  · next moves =>
    have half : 1 / 2 ≤ x - ⌊x⌋ := by
      by_contra small
      exact moves (.inl (by linarith))
    push_cast
    rw [abs_le]
    constructor <;> linarith

/-! ## Formats -/

/-- A binary format. -/
structure Format where
  /-- How many significant digits a value has. -/
  precision : ℕ
  positive : 1 ≤ precision
  /-- The exponent of the least positive value. -/
  least : ℤ
  /-- The exponent of the first power of two that is too large. -/
  top : ℤ

variable (F : Format)

/-- The exponent of the last digit that is kept of `x`. -/
def Format.lastDigit (x : ℚ) : ℤ := max (Int.log 2 |x| + 1 - F.precision) F.least

/-- The distance between the values around `x`. -/
def Format.unit (x : ℚ) : ℚ := 2 ^ F.lastDigit x

/-- The nearest value, were there no largest one. -/
def Format.round (x : ℚ) : ℚ := nearest (x / F.unit x) * F.unit x

/-- The format has the value `x`, were there no largest one. -/
def Format.Has (x : ℚ) : Prop := ∃ m : ℤ, x = m * F.unit x

variable {F}

theorem unit_pos : 0 < F.unit x := zpow_pos two_pos _

theorem has_zero : F.Has 0 := ⟨0,by simp⟩

theorem round_of_has (has : F.Has x) : F.round x = x := by
  obtain ⟨m,same⟩ := has
  have digits : x / F.unit x = m := by
    rw [div_eq_iff (ne_of_gt unit_pos)]
    exact same
  rw [Format.round,digits,nearest_intCast]
  exact same.symm

@[simp] theorem round_zero : F.round 0 = 0 := round_of_has has_zero

/-- Numbers of one size are rounded in order. -/
theorem round_mono_unit (order : x ≤ y) (same : F.unit x = F.unit y) : F.round x ≤ F.round y := by
  unfold Format.round
  rw [same]
  have scaled : x / F.unit y ≤ y / F.unit y := div_le_div_of_nonneg_right order unit_pos.le
  have kept : (nearest (x / F.unit y) : ℚ) ≤ nearest (y / F.unit y) := by exact_mod_cast nearest_mono scaled
  exact mul_le_mul_of_nonneg_right kept unit_pos.le

/-- A power of two that is large enough counts as a whole number of units. -/
theorem power_units {k : ℤ} (large : F.lastDigit x ≤ k) : (2 : ℚ) ^ k = ((2 ^ (k - F.lastDigit x).toNat : ℤ) : ℚ) * F.unit x := by
  have whole : (((k - F.lastDigit x).toNat : ℕ) : ℤ) = k - F.lastDigit x := Int.toNat_of_nonneg (by omega)
  push_cast
  rw [← zpow_natCast,whole,Format.unit,← zpow_add₀ two_ne_zero]
  congr 1
  omega

theorem round_le_power {k : ℤ} (below : x ≤ 2 ^ k) (large : F.lastDigit x ≤ k) : F.round x ≤ 2 ^ k := by
  have units := power_units large
  rw [units] at below ⊢
  have digits : x / F.unit x ≤ ((2 ^ (k - F.lastDigit x).toNat : ℤ) : ℚ) := by
    rw [div_le_iff₀ unit_pos]
    exact below
  have kept : (nearest (x / F.unit x) : ℚ) ≤ ((2 ^ (k - F.lastDigit x).toNat : ℤ) : ℚ) := by
    exact_mod_cast nearest_le digits
  exact mul_le_mul_of_nonneg_right kept unit_pos.le

theorem power_le_round {k : ℤ} (above : 2 ^ k ≤ x) (large : F.lastDigit x ≤ k) : 2 ^ k ≤ F.round x := by
  have units := power_units large
  rw [units] at above ⊢
  have digits : ((2 ^ (k - F.lastDigit x).toNat : ℤ) : ℚ) ≤ x / F.unit x := by
    rw [le_div_iff₀ unit_pos]
    exact above
  have kept : ((2 ^ (k - F.lastDigit x).toNat : ℤ) : ℚ) ≤ (nearest (x / F.unit x) : ℚ) := by
    exact_mod_cast le_nearest digits
  exact mul_le_mul_of_nonneg_right kept unit_pos.le

theorem round_nonneg (nonneg : 0 ≤ x) : 0 ≤ F.round x := by
  have digits : ((0 : ℤ) : ℚ) ≤ x / F.unit x := by
    push_cast
    exact div_nonneg nonneg unit_pos.le
  have kept : (0 : ℚ) ≤ nearest (x / F.unit x) := by exact_mod_cast le_nearest digits
  exact mul_nonneg kept unit_pos.le

/-- Rounding keeps the order. Between two numbers of different sizes lies a power
    of two, which both formats of digits have. -/
theorem round_mono (nonneg : 0 ≤ x) (order : x ≤ y) : F.round x ≤ F.round y := by
  rcases nonneg.eq_or_lt with rfl | positive
  · rw [round_zero]
    exact round_nonneg order
  · have logs : Int.log 2 x ≤ Int.log 2 y := Int.log_mono_right positive order
    have size : |x| = x := abs_of_pos positive
    have size' : |y| = y := abs_of_pos (positive.trans_le order)
    by_cases same : F.lastDigit x = F.lastDigit y
    · exact round_mono_unit order (by rw [Format.unit,Format.unit,same])
    · have digits := F.positive
      unfold Format.lastDigit at same
      rw [size,size'] at same
      have lower : Int.log 2 x + 1 ≤ Int.log 2 y := by
        by_contra less
        have equal : Int.log 2 x = Int.log 2 y := by omega
        exact same (by rw [equal])
      have mark : x ≤ 2 ^ Int.log 2 y := by
        have below := Int.lt_zpow_succ_log_self (b := 2) (by decide) x
        have powers : (2 : ℚ) ^ (Int.log 2 x + 1) ≤ 2 ^ Int.log 2 y := zpow_le_zpow_right₀ (by norm_num) lower
        push_cast at below
        linarith
      have mark' : (2 : ℚ) ^ Int.log 2 y ≤ y := by
        have above := Int.zpow_log_le_self (b := 2) (by decide) (positive.trans_le order)
        push_cast at above
        exact above
      have large : F.lastDigit x ≤ Int.log 2 y := by
        unfold Format.lastDigit
        rw [size]
        omega
      have large' : F.lastDigit y ≤ Int.log 2 y := by
        unfold Format.lastDigit
        rw [size']
        omega
      exact (round_le_power mark large).trans (power_le_round mark' large')

/-- What is below a value of the format is rounded to something below it. -/
theorem round_le (nonneg : 0 ≤ x) (order : x ≤ y) (has : F.Has y) : F.round x ≤ y := by
  have kept := round_mono (F := F) nonneg order
  rwa [round_of_has has] at kept

theorem le_round (nonneg : 0 ≤ x) (order : x ≤ y) (has : F.Has x) : x ≤ F.round y := by
  have kept := round_mono (F := F) nonneg order
  rwa [round_of_has has] at kept

/-- A whole number of digits, and the last of them where the format can have it. -/
theorem has_digits {m k : ℤ} (digits : |m| ≤ 2 ^ F.precision) (large : F.least ≤ k) : F.Has (m * 2 ^ k) := by
  have units : ∀ (c e : ℤ), F.lastDigit (m * 2 ^ k) ≤ e → (m : ℚ) * 2 ^ k = c * 2 ^ e → F.Has (m * 2 ^ k) := by
    intro c e last same
    refine ⟨c * 2 ^ (e - F.lastDigit (m * 2 ^ k)).toNat,same.trans ?_⟩
    have power := power_units last
    generalize F.unit (m * 2 ^ k) = unit at power ⊢
    rw [power]
    push_cast
    ring
  rcases eq_or_ne m 0 with rfl | nonzero
  · simpa using has_zero
  · have size : |(m : ℚ) * 2 ^ k| = (|m| : ℤ) * 2 ^ k := by
      rw [abs_mul,abs_of_pos (zpow_pos (two_pos (α := ℚ)) k),Int.cast_abs]
    have positive : (0 : ℚ) < (|m| : ℤ) * 2 ^ k :=
      mul_pos (by exact_mod_cast abs_pos.mpr nonzero) (zpow_pos two_pos k)
    have smaller : ∀ e : ℕ, |m| < 2 ^ e → Int.log 2 |(m : ℚ) * 2 ^ k| < e + k := by
      intro e below
      rw [size,← Int.lt_zpow_iff_log_lt (by decide) positive]
      push_cast
      rw [zpow_add₀ two_ne_zero,zpow_natCast]
      exact mul_lt_mul_of_pos_right (by exact_mod_cast below) (zpow_pos two_pos k)
    have fits := F.positive
    rcases digits.lt_or_eq with fewer | all
    · have log := smaller _ fewer
      exact units m k (by unfold Format.lastDigit; omega) rfl
    · -- All digits are zero but one in front of them.
      have log := smaller (F.precision + 1) (by rw [all]; exact pow_lt_pow_right₀ (by norm_num) (by omega))
      push_cast at log
      have halves : (2 : ℤ) ^ F.precision = 2 ^ (F.precision - 1) * 2 := by
        rw [← pow_succ,Nat.sub_add_cancel fits]
      refine units (m / 2) (k + 1) (by unfold Format.lastDigit; omega) ?_
      have even : m / 2 * 2 = m := by
        refine Int.ediv_mul_cancel ?_
        rcases abs_eq (by positivity) |>.mp all with same | same
        · exact ⟨2 ^ (F.precision - 1),by rw [same,halves]; ring⟩
        · exact ⟨-2 ^ (F.precision - 1),by rw [same,halves]; ring⟩
      have cast : ((m / 2 : ℤ) : ℚ) * 2 = m := by exact_mod_cast even
      rw [zpow_add_one₀ two_ne_zero,← cast]
      ring

/-- The format has the whole numbers that are not longer than its digits. -/
theorem has_natCast {n : ℕ} (short : n ≤ 2 ^ F.precision) (whole : F.least ≤ 0) : F.Has n := by
  have digits : |(n : ℤ)| ≤ 2 ^ F.precision := by
    rw [abs_of_nonneg (Int.natCast_nonneg n)]
    exact_mod_cast short
  simpa using has_digits (F := F) digits whole

theorem abs_lt_unit (x : ℚ) : |x / F.unit x| ≤ ((2 ^ F.precision : ℤ) : ℚ) := by
  rw [abs_div,abs_of_pos unit_pos,div_le_iff₀ unit_pos,Format.unit]
  push_cast
  rw [← zpow_natCast,← zpow_add₀ two_ne_zero]
  have below := Int.lt_zpow_succ_log_self (b := 2) (by decide) |x|
  push_cast at below
  refine below.le.trans (zpow_le_zpow_right₀ (by norm_num) ?_)
  unfold Format.lastDigit
  omega

/-- What is rounded the format has. -/
theorem round_has (x : ℚ) : F.Has (F.round x) := by
  obtain ⟨lower,upper⟩ := abs_le.mp (abs_lt_unit (F := F) x)
  refine has_digits (abs_le.mpr ⟨le_nearest ?_,nearest_le upper⟩) (le_max_right ..)
  push_cast at lower ⊢
  exact lower

/-- Rounding moves a number by half a unit at most. -/
theorem round_close (x : ℚ) : |F.round x - x| ≤ F.unit x / 2 := by
  have close := nearest_close (x / F.unit x)
  have scaled : F.round x - x = (nearest (x / F.unit x) - x / F.unit x) * F.unit x := by
    rw [Format.round,sub_mul,div_mul_cancel₀ _ (ne_of_gt unit_pos)]
  rw [scaled,abs_mul,abs_of_pos unit_pos]
  have positive : 0 < F.unit x := unit_pos
  nlinarith

/-! ## Values -/

/-- A value of a format; zero has one sign. -/
inductive Value where
  | nan
  | infinite (negative : Bool)
  | finite (value : ℚ)
deriving DecidableEq, Repr

/-- The value nearest to an exact result. -/
def Format.value (F : Format) (x : ℚ) : Value :=
  if 2 ^ F.top ≤ |F.round x| then .infinite (F.round x < 0) else .finite (F.round x)

def Format.mul (F : Format) : Value → Value → Value
  | .finite x,.finite y => F.value (x * y)
  | .infinite a,.infinite b => .infinite (a != b)
  | .infinite a,.finite y => if y = 0 then .nan else .infinite (a != decide (y < 0))
  | .finite x,.infinite b => if x = 0 then .nan else .infinite (decide (x < 0) != b)
  | .nan,_ => .nan
  | _,.nan => .nan

/-- The conversion to an unsigned number of that many bits: towards zero, and to
    the nearest bound outside the range. -/
def Value.toNat (bits : ℕ) : Value → ℕ
  | .nan => 0
  | .infinite negative => if negative then 0 else 2 ^ bits - 1
  | .finite x => min ⌊x⌋.toNat (2 ^ bits - 1)

/-- A format that can hold every number of that many bits, and whole numbers at
    all. -/
structure Format.Holds (F : Format) (bits : ℕ) : Prop where
  whole : F.least ≤ 0
  large : bits < F.top

variable {bits : ℕ}

theorem toNat_value (holds : F.Holds bits) (nonneg : 0 ≤ x) :
    (F.value x).toNat bits = min ⌊F.round x⌋.toNat (2 ^ bits - 1) := by
  have rounded := round_nonneg (F := F) nonneg
  unfold Format.value
  split
  · next large =>
    rw [abs_of_nonneg rounded] at large
    have bound : ((2 ^ bits : ℤ) : ℚ) ≤ F.round x := by
      push_cast
      rw [← zpow_natCast]
      exact (zpow_le_zpow_right₀ (by norm_num) holds.large.le).trans large
    have floor : (2 ^ bits : ℤ) ≤ ⌊F.round x⌋ := Int.le_floor.mpr bound
    have many : 2 ^ bits ≤ ⌊F.round x⌋.toNat := by
      rw [Int.le_toNat (by positivity)]
      exact_mod_cast floor
    simp only [Value.toNat,not_lt.mpr rounded,decide_false,Bool.false_eq_true,if_false]
    omega
  · rfl

/-- A share of a whole number: the product with a value, rounded and converted
    back. -/
def Format.share (F : Format) (bits n : ℕ) (t : Value) : ℕ := (F.mul (F.value n) t).toNat bits

section
variable {n m : ℕ} {t u : ℚ} (holds : F.Holds bits) (fits : n < 2 ^ bits)
include holds fits

theorem value_natCast : F.value n = .finite (F.round n) := by
  have power : F.Has ((2 ^ bits : ℕ) : ℚ) := by
    have has := has_digits (F := F) (m := 1) (k := bits) (by simpa using one_le_pow₀ (by norm_num))
      (holds.whole.trans (Int.natCast_nonneg bits))
    simpa using has
  have small : F.round n ≤ ((2 ^ bits : ℕ) : ℚ) := round_le (Nat.cast_nonneg n) (by exact_mod_cast fits.le) power
  have below : F.round n < 2 ^ F.top := by
    refine small.trans_lt ?_
    push_cast
    rw [← zpow_natCast]
    exact zpow_lt_zpow_right₀ (by norm_num) holds.large
  unfold Format.value
  rw [abs_of_nonneg (round_nonneg (Nat.cast_nonneg n)),if_neg (not_le.mpr below)]

theorem share_finite (nonneg : 0 ≤ t) :
    F.share bits n (.finite t) = min ⌊F.round (F.round n * t)⌋.toNat (2 ^ bits - 1) := by
  unfold Format.share
  rw [value_natCast holds fits]
  exact toNat_value holds (mul_nonneg (round_nonneg (Nat.cast_nonneg n)) nonneg)

theorem share_one : F.share bits n (.finite 1) = min ⌊F.round n⌋.toNat (2 ^ bits - 1) := by
  rw [share_finite holds fits zero_le_one,mul_one,round_of_has (round_has (n : ℚ))]

/-- A larger share of a number is larger. -/
theorem share_mono_right (nonneg : 0 ≤ t) (order : t ≤ u) : F.share bits n (.finite t) ≤ F.share bits n (.finite u) := by
  rw [share_finite holds fits nonneg,share_finite holds fits (nonneg.trans order)]
  have whole : 0 ≤ F.round (n : ℚ) := round_nonneg (Nat.cast_nonneg n)
  have products := round_mono (F := F) (mul_nonneg whole nonneg) (mul_le_mul_of_nonneg_left order whole)
  have floors := Int.toNat_le_toNat (Int.floor_mono products)
  omega

/-- The same share of a larger number is larger. -/
theorem share_mono_left (fits' : m < 2 ^ bits) (nonneg : 0 ≤ t) (order : n ≤ m) :
    F.share bits n (.finite t) ≤ F.share bits m (.finite t) := by
  rw [share_finite holds fits nonneg,share_finite holds fits' nonneg]
  have whole : 0 ≤ F.round (n : ℚ) := round_nonneg (Nat.cast_nonneg n)
  have wholes : F.round (n : ℚ) ≤ F.round m := round_mono (Nat.cast_nonneg n) (by exact_mod_cast order)
  have products := round_mono (F := F) (mul_nonneg whole nonneg) (mul_le_mul_of_nonneg_right wholes nonneg)
  have floors := Int.toNat_le_toNat (Int.floor_mono products)
  omega

end

/-- Where all digits are there, rounding moves a number by a small part of it. -/
theorem round_le_mul (normal : 2 ^ (F.least + F.precision - 1) ≤ x) : F.round x ≤ x * (1 + 2 ^ (-F.precision : ℤ)) := by
  have positive : 0 < x := (zpow_pos two_pos _).trans_le normal
  have log : F.least + F.precision - 1 ≤ Int.log 2 x := by
    rw [← Int.zpow_le_iff_le_log (by decide) positive]
    push_cast
    exact normal
  have last : F.lastDigit x = Int.log 2 x + 1 - F.precision := by
    unfold Format.lastDigit
    rw [abs_of_pos positive]
    omega
  have unit : F.unit x ≤ x * 2 ^ (1 - F.precision : ℤ) := by
    have lower := Int.zpow_log_le_self (b := 2) (by decide) positive
    push_cast at lower
    rw [Format.unit,last,add_sub_assoc,zpow_add₀ two_ne_zero]
    exact mul_le_mul_of_nonneg_right lower (zpow_pos two_pos _).le
  have halves : (2 : ℚ) ^ (1 - F.precision : ℤ) = 2 * 2 ^ (-F.precision : ℤ) := by
    rw [sub_eq_add_neg,zpow_add₀ two_ne_zero,zpow_one]
  have close := (abs_le.mp (round_close (F := F) x)).2
  rw [halves] at unit
  linarith

/-- The formats of `f32` and `f64`. -/
def f32 : Format where
  precision := 24
  positive := by decide
  least := -149
  top := 128

def f64 : Format where
  precision := 53
  positive := by decide
  least := -1074
  top := 1024

theorem f32_holds : f32.Holds 64 := ⟨by decide,by decide⟩

theorem f64_holds : f64.Holds 64 := ⟨by decide,by decide⟩

end ActorKit.Rounding
