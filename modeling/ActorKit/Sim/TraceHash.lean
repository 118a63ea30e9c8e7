import ActorKit.Sim.World

/-!
# The hash of a trace

Every step of FNV-1a is a bijection of the hash and of the byte. Two runs whose
hashes differ at some point keep differing for as long as they record the same
operations, and one changed byte is always noticed.
-/

namespace ActorKit.Sim.TraceHash
open ActorKit.sim

/-- One byte of `fnv1a`. -/
def absorb (hash : UInt64) (byte : UInt8) : UInt64 := (hash ^^^ UInt64.ofNat byte.toNat) * 0x00000100000001b3

theorem fnv1a_append (bytes more : List UInt8) : fnv1a (bytes ++ more) = more.foldl absorb (fnv1a bytes) :=
  List.foldl_append ..

/-- The prime of FNV-1a is odd, so multiplication by it can be undone. -/
theorem prime_cancel {a b : UInt64} (same : a * 0x00000100000001b3 = b * 0x00000100000001b3) : a = b := by
  have inverse : (0x00000100000001b3 : UInt64) * 0xce965057aff6957b = 1 := by decide
  calc a = a * 0x00000100000001b3 * 0xce965057aff6957b := by rw [UInt64.mul_assoc,inverse,UInt64.mul_one]
    _ = b * 0x00000100000001b3 * 0xce965057aff6957b := by rw [same]
    _ = b := by rw [UInt64.mul_assoc,inverse,UInt64.mul_one]

theorem absorb_hash {a b : UInt64} (byte : UInt8) (same : absorb a byte = absorb b byte) : a = b :=
  (UInt64.xor_left_inj _).mp (prime_cancel same)

theorem absorb_byte (hash : UInt64) {x y : UInt8} (same : absorb hash x = absorb hash y) : x = y := by
  have bytes : UInt64.ofNat x.toNat = UInt64.ofNat y.toNat := (UInt64.xor_right_inj _).mp (prime_cancel same)
  have values := congrArg UInt64.toNat bytes
  have first := x.toNat_lt
  have second := y.toNat_lt
  rw [UInt64.toNat_ofNat',UInt64.toNat_ofNat',Nat.mod_eq_of_lt (by omega),Nat.mod_eq_of_lt (by omega)] at values
  exact UInt8.toNat_inj.mp values

/-- Different hashes stay different while the same bytes follow. -/
theorem foldl_absorb_inj {a b : UInt64} (bytes : List UInt8) : bytes.foldl absorb a = bytes.foldl absorb b ↔ a = b := by
  induction bytes generalizing a b with
  | nil => exact Iff.rfl
  | cons byte bytes ih =>
    rw [List.foldl_cons,List.foldl_cons,ih]
    exact ⟨absorb_hash byte,fun same => by rw [same]⟩

/-- The hash is the same after the same operations exactly when it was before, and
    two byte strings that differ in one byte never collide. -/
theorem trace_hash_keeps : (∀ (s t : Sim) (more : List TraceOp),
    ({ s with trace := s.trace ++ more } : Sim).trace_hash = ({ t with trace := t.trace ++ more } : Sim).trace_hash ↔
      s.trace_hash = t.trace_hash) ∧
    ∀ (before after : List UInt8) (x y : UInt8), fnv1a (before ++ x :: after) = fnv1a (before ++ y :: after) ↔ x = y := by
  constructor
  · intro s t more
    simp only [Sim.trace_hash]
    rw [List.flatMap_append,List.flatMap_append,fnv1a_append,fnv1a_append,foldl_absorb_inj]
  · intro before after x y
    rw [fnv1a_append,fnv1a_append,List.foldl_cons,List.foldl_cons,foldl_absorb_inj]
    exact ⟨absorb_byte _,fun same => by rw [same]⟩

end ActorKit.Sim.TraceHash
