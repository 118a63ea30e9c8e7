import ActorKit.Sim.Clock

/-!
# Time moves forward

As long as the durations add up within 64 bits of microseconds, the clock reads
what it returns, the readings are the running sums, and none is below the one
before it. The advance that leaves the 64 bits returns the last instant and stores
an earlier one.
-/

namespace ActorKit.Sim.VirtualTime
open ActorKit.clock

/-- What is expected of the clock over a list of advances. -/
structure Forward (clock : SimClock) (ds : List Duration) : Prop where
  ordered : (clock.readings ds).Pairwise (· ≤ ·)
  returned : (Machine.run SimClock.advance clock ds).2 = (clock.readings ds).tail
  summed : clock.readings ds = ds.scanl SimInstant.add clock.now

/-- The microseconds of a list of durations. -/
def total (ds : List Duration) : Nat := (ds.map (fun d => min (d.nanos / 1000) (2 ^ 64 - 1))).sum

@[simp] theorem total_nil : total [] = 0 := rfl

@[simp] theorem total_cons (d : Duration) (ds : List Duration) :
    total (d :: ds) = min (d.nanos / 1000) (2 ^ 64 - 1) + total ds := rfl

@[simp] theorem micros_of_toNat (d : Duration) : (micros_of d).toNat = min (d.nanos / 1000) (2 ^ 64 - 1) := by
  unfold micros_of Duration.as_micros
  by_cases short : d.nanos / 1000 < 2 ^ 64
  · rw [if_pos short,UInt64.toNat_ofNat',Nat.mod_eq_of_lt short]
    omega
  · rw [if_neg short]
    have last : U64_MAX.toNat = 2 ^ 64 - 1 := by decide
    omega

/-- The counter when the sum fits. -/
theorem sum_toNat {x y : UInt64} (fits : x.toNat + y.toNat < 2 ^ 64) : (x + y).toNat = x.toNat + y.toNat := by
  rw [UInt64.toNat_add,Nat.mod_eq_of_lt fits]

/-- An advance returns what the clock reads next exactly when the sum fits. -/
theorem advance_agrees (clock : SimClock) (d : Duration) :
    (clock.advance d).2 = (clock.advance d).1.now ↔ clock.micros.toNat + (micros_of d).toNat < 2 ^ 64 := by
  simp only [SimClock.advance,SimClock.now,SimInstant.mk.injEq,saturating_add]
  by_cases fits : clock.micros.toNat + (micros_of d).toNat < 2 ^ 64
  · rw [if_pos fits]
    exact iff_of_true rfl fits
  · -- the returned instant is the last one, and what is stored has wrapped below it
    rw [if_neg fits]
    have last : U64_MAX.toNat = 2 ^ 64 - 1 := by decide
    have start := clock.micros.toNat_lt
    have step := (micros_of d).toNat_lt
    refine iff_of_false (fun same => ?_) fits
    have stored := congrArg UInt64.toNat same
    rw [UInt64.toNat_add,last] at stored
    omega

theorem readings_head (clock : SimClock) (ds : List Duration) :
    clock.readings ds = clock.now :: (clock.readings ds).tail := by
  cases ds <;> rfl

/-- One advance in front of others. -/
theorem forward_cons (clock : SimClock) (d : Duration) (ds : List Duration) :
    Forward clock (d :: ds) ↔
      clock.micros.toNat + (micros_of d).toNat < 2 ^ 64 ∧ Forward (clock.advance d).1 ds := by
  constructor
  · intro forward
    obtain ⟨ordered,returned,summed⟩ := forward
    rw [Machine.run_cons,SimClock.readings,List.tail_cons,readings_head] at returned
    obtain ⟨agrees,answers⟩ := List.cons.inj returned
    have fits := (advance_agrees clock d).mp agrees
    refine ⟨fits,(List.pairwise_cons.mp ordered).2,answers,?_⟩
    rw [SimClock.readings,List.scanl_cons] at summed
    have rest := (List.cons.inj summed).2
    rw [rest,← agrees]
    rfl
  · rintro ⟨fits,ordered,returned,summed⟩
    have agrees := (advance_agrees clock d).mpr fits
    have later : clock.now ≤ (clock.advance d).1.now := by
      change clock.micros ≤ clock.micros + micros_of d
      rw [UInt64.le_iff_toNat_le,sum_toNat fits]
      omega
    refine ⟨List.pairwise_cons.mpr ⟨fun instant member => ?_,ordered⟩,?_,?_⟩
    · rw [readings_head] at member ordered
      rcases List.mem_cons.mp member with rfl | further
      · exact later
      · exact UInt64.le_trans later ((List.pairwise_cons.mp ordered).1 instant further)
    · rw [Machine.run_cons,SimClock.readings,List.tail_cons,readings_head,returned,agrees]
    · rw [SimClock.readings,List.scanl_cons,summed,← agrees]
      rfl

/-- Virtual time runs forward over a list of advances exactly when the start and
    the durations add up within 64 bits. -/
theorem forward_iff (start : UInt64) (ds : List Duration) :
    Forward (.with_start start) ds ↔ start.toNat + total ds < 2 ^ 64 := by
  induction ds generalizing start with
  | nil =>
    have bounded := start.toNat_lt
    refine iff_of_true ⟨?_,rfl,?_⟩ (by simpa using bounded)
    · exact List.pairwise_singleton _ _
    · rw [SimClock.readings,List.scanl_nil]
  | cons d ds ih =>
    rw [forward_cons]
    have rest := ih (start + micros_of d)
    constructor
    · rintro ⟨fits,forward⟩
      have sum := rest.mp forward
      have fits : start.toNat + (micros_of d).toNat < 2 ^ 64 := fits
      rw [sum_toNat fits,micros_of_toNat] at sum
      rw [total_cons]
      omega
    · intro sum
      rw [total_cons,← micros_of_toNat d] at sum
      have fits : start.toNat + (micros_of d).toNat < 2 ^ 64 := by omega
      refine ⟨fits,rest.mpr ?_⟩
      rw [sum_toNat fits]
      omega

/-- A microsecond after the longest duration the clock is back at its epoch. -/
theorem time_runs_backwards : ¬ ∀ start ds, Forward (.with_start start) ds := by
  intro always
  have ordered := (always 0 [.MAX,.from_micros 1]).ordered
  revert ordered
  decide

end ActorKit.Sim.VirtualTime
