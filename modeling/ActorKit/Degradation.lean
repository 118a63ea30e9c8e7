import ActorKit.Admission
import ActorKit.Lib.Rounding

/-!
# Graceful degradation

The controller of `supervisor.rs` that reads the pressure from a monitor and
shrinks batches under it. The share of a batch is computed in `f64`, so that the
batch of an elevated pressure may come out larger than the normal one.
-/

namespace ActorKit.supervisor
open ActorKit.scheduler ActorKit.Rounding
variable {σ : Type}

/-- A monitor reports a pressure level; what it reads for that is the state `σ`. -/
structure ResourceMonitor (σ : Type) where
  current_pressure : σ → PressureLevel

/-- A static monitor that always reports the same pressure level. -/
def StaticResourceMonitor.new (level : PressureLevel) : ResourceMonitor σ where
  current_pressure _ := level

/-- A monitor that reports what two closures answer. -/
def FnResourceMonitor.new (elevated_fn critical_fn : σ → Bool) : ResourceMonitor σ where
  current_pressure state := if critical_fn state then .Critical else if elevated_fn state then .Elevated else .Normal

/-- The clamp of a value between zero and one; it keeps what is not a number. -/
def clamp : Value → Value
  | .nan => .nan
  | .infinite negative => .finite (if negative then 0 else 1)
  | .finite x => .finite (max 0 (min x 1))

structure DegradationController (σ : Type) where
  monitor : ResourceMonitor σ
  elevated_batch_factor : Value

namespace DegradationController

/-- Create a new controller with the given resource monitor. -/
def new (monitor : ResourceMonitor σ) (elevated_batch_factor : Value) : DegradationController σ :=
  { monitor, elevated_batch_factor := clamp elevated_batch_factor }

/-- Compute the effective batch size given normal and current pressure. -/
def effective_batch_size (c : DegradationController σ) (state : σ) (normal : Nat) : Nat :=
  match c.monitor.current_pressure state with
  | .Normal => normal
  | .Elevated => max (f64.share 64 normal c.elevated_batch_factor) 1
  | .Critical => 1

end DegradationController
end ActorKit.supervisor

namespace ActorKit.Degradation
open ActorKit.scheduler ActorKit.supervisor ActorKit.Rounding
variable {σ : Type}

/-- The derived order of the levels. -/
def level : PressureLevel → Nat
  | .Normal => 0
  | .Elevated => 1
  | .Critical => 2

/-- The second state is under more pressure than the first, or under the same. -/
def Harder (monitor : ResourceMonitor σ) (state state' : σ) : Prop :=
  level (monitor.current_pressure state) ≤ level (monitor.current_pressure state')

instance (monitor : ResourceMonitor σ) (state state' : σ) : Decidable (Harder monitor state state') :=
  inferInstanceAs (Decidable (_ ≤ _))

/-! ## Batches -/

/-- What the clamp leaves: a part of one, or no number. -/
theorem clamp_cases (t : Value) : clamp t = .nan ∨ ∃ x : ℚ, clamp t = .finite x ∧ 0 ≤ x ∧ x ≤ 1 := by
  cases t with
  | nan => exact .inl rfl
  | infinite negative =>
    refine .inr ⟨_,rfl,?_,?_⟩
    · split <;> norm_num
    · split <;> norm_num
  | finite x => exact .inr ⟨_,rfl,le_max_left ..,max_le zero_le_one (min_le_right ..)⟩

/-- Without a number there is no share. -/
theorem share_nan (n : Nat) : f64.share 64 n .nan = 0 := by
  unfold Format.share
  cases f64.value n <;> rfl

section
variable {normal : Nat} (fits : normal < 2 ^ 64)
include fits

theorem share_clamp_le (t : Value) : f64.share 64 normal (clamp t) ≤ f64.share 64 normal (.finite 1) := by
  rcases clamp_cases t with none | ⟨x,part,nonneg,small⟩
  · rw [none,share_nan]
    exact Nat.zero_le _
  · rw [part]
    exact share_mono_right f64_holds fits nonneg small

/-- More pressure never makes a batch larger, whatever the monitor and the factor,
    exactly when the normal batch has a message and its size is not rounded up as an
    `f64`. -/
theorem pressure_shrinks_batches_iff :
    (∀ (σ : Type) (monitor : ResourceMonitor σ) (factor : Value) (state state' : σ), Harder monitor state state' →
      (DegradationController.new monitor factor).effective_batch_size state' normal ≤
        (DegradationController.new monitor factor).effective_batch_size state normal) ↔
      1 ≤ normal ∧ min ⌊f64.round normal⌋.toNat (2 ^ 64 - 1) ≤ normal := by
  rw [← share_one f64_holds fits]
  constructor
  · intro shrinks
    -- The pressure rises from normal to elevated, with a factor that keeps all of the batch.
    have whole := shrinks Bool (FnResourceMonitor.new id (fun _ => false)) (.finite 1) false true (by decide)
    have same : clamp (.finite 1) = .finite 1 := rfl
    simp only [DegradationController.effective_batch_size,DegradationController.new,FnResourceMonitor.new,same,id,
      Bool.false_eq_true,if_false,if_true] at whole
    omega
  · rintro ⟨some,exact_⟩ σ monitor factor state state' harder
    have part := share_clamp_le fits factor
    unfold Harder at harder
    unfold DegradationController.effective_batch_size DegradationController.new
    cases here : monitor.current_pressure state <;> cases there : monitor.current_pressure state' <;>
      simp only [here,there,level] at harder ⊢ <;> omega

end

/-- A hundred messages under half a factor are fifty, and none are more. -/
theorem pressure_shrinks_batches_hundred :
    (DegradationController.new (FnResourceMonitor.new id (fun _ => false)) (.finite (1 / 2))).effective_batch_size true 100 = 50 ∧
    (DegradationController.new (FnResourceMonitor.new id (fun _ => false)) (.finite (1 / 2))).effective_batch_size true 100 ≤
      (DegradationController.new (FnResourceMonitor.new id (fun _ => false)) (.finite (1 / 2))).effective_batch_size false 100 := by
  have whole : f64.round ((100 : ℕ) : ℚ) = 100 := round_of_has (has_natCast (by decide) (by decide))
  refine ⟨by decide +kernel,(pressure_shrinks_batches_iff (show 100 < 2 ^ 64 by decide)).mpr ⟨by decide,?_⟩ Bool _ _ false true
    (by decide)⟩
  rw [whole]
  decide

end ActorKit.Degradation
