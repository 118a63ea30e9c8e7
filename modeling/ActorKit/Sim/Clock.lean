import Mathlib.Algebra.GroupWithZero.Nat
import ActorKit.Lib.Machine

/-!
# Virtual time

The model of `sim/clock.rs`: a clock that moves only when it is advanced. What
`advance` stores wraps around and what it returns saturates; a reading is what is
stored.
-/

namespace ActorKit.clock

/-- A `Duration`: nanoseconds that fit the 64 bits of its seconds. -/
structure Duration where
  nanos : Nat
  fits : nanos < 2 ^ 64 * 1000000000
deriving DecidableEq

namespace Duration

def MAX : Duration := ⟨2 ^ 64 * 1000000000 - 1,by decide⟩

def as_micros (d : Duration) : Nat := d.nanos / 1000

def from_micros (micros : UInt64) : Duration := ⟨micros.toNat * 1000,by have := micros.toNat_lt; omega⟩

end Duration

def U64_MAX : UInt64 := 0xffffffffffffffff

/-- Saturating microsecond count of a duration. -/
def micros_of (duration : Duration) : UInt64 :=
  if duration.as_micros < 2 ^ 64 then .ofNat duration.as_micros else U64_MAX

/-- `u64::saturating_add`. -/
def saturating_add (x y : UInt64) : UInt64 := if x.toNat + y.toNat < 2 ^ 64 then x + y else U64_MAX

/-- A point in simulated time. -/
structure SimInstant where
  micros : UInt64
deriving DecidableEq

namespace SimInstant

instance : LE SimInstant := ⟨fun earlier later => earlier.micros ≤ later.micros⟩

instance (earlier later : SimInstant) : Decidable (earlier ≤ later) :=
  inferInstanceAs (Decidable (earlier.micros ≤ later.micros))

def add (instant : SimInstant) (rhs : Duration) : SimInstant := ⟨saturating_add instant.micros (micros_of rhs)⟩

end SimInstant

/-- The clock: its atomic counter. -/
structure SimClock where
  micros : UInt64
deriving DecidableEq

namespace SimClock

def with_start (micros : UInt64) : SimClock := ⟨micros⟩

def now (clock : SimClock) : SimInstant := ⟨clock.micros⟩

/-- Advance simulated time: the counter is added to, and the new instant returned. -/
def advance (clock : SimClock) (duration : Duration) : SimClock × SimInstant :=
  let micros := micros_of duration
  (⟨clock.micros + micros⟩,⟨saturating_add clock.micros micros⟩)

/-- What the clock reads before a list of advances and after each of them. -/
def readings (clock : SimClock) : List Duration → List SimInstant
  | [] => [clock.now]
  | d :: rest => clock.now :: (clock.advance d).1.readings rest

end SimClock
end ActorKit.clock
