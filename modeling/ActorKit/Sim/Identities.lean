import ActorKit.Sim.Population

/-!
# The ids of the simulation

The id of an incarnation is the base with the ordinal above it and the incarnation
in the low half. The base has bits in the low half as well: what an incarnation
has there is lost.
-/

namespace ActorKit.Sim.Identities
open ActorKit.sim ActorKit.Sim.Population

/-- The bits of an incarnation that the base sets anyway. -/
def taken : BitVec 64 := SIM_ID_BASE.setWidth 64

/-- What a mask hides of two words is all that may tell them apart. -/
theorem or_eq_or_iff {w : Nat} (mask x y : BitVec w) : mask ||| x = mask ||| y ↔ x &&& ~~~mask = y &&& ~~~mask := by
  constructor
  · intro same
    ext k inside
    have bit : (mask ||| x)[k] = (mask ||| y)[k] := by rw [same]
    simp only [BitVec.getElem_or,BitVec.getElem_and,BitVec.getElem_not] at bit ⊢
    cases set : mask[k] with
    | false => simpa [set] using bit
    | true => simp
  · intro same
    ext k inside
    have bit : (x &&& ~~~mask)[k] = (y &&& ~~~mask)[k] := by rw [same]
    simp only [BitVec.getElem_or,BitVec.getElem_and,BitVec.getElem_not] at bit ⊢
    cases set : mask[k] with
    | false => simpa [set] using bit
    | true => simp

theorem low_half (ord inc : Nat) : (sim_actor_id ord inc).uuid.setWidth 64 = taken ||| BitVec.ofNat 64 inc := by
  have shifted : ((BitVec.ofNat 64 ord).setWidth 128 <<< 64).setWidth 64 = 0#64 := by
    ext k inside
    simp
  rw [sim_actor_id,BitVec.setWidth_or,BitVec.setWidth_or,shifted,BitVec.or_zero,taken]
  simp

/-- An id is made of its two halves. -/
theorem id_eq_halves (ord inc : Nat) : sim_actor_id ord inc =
    ⟨((BitVec.ofNat 64 ord).setWidth 128 <<< 64) ||| (taken ||| BitVec.ofNat 64 inc).setWidth 128⟩ := by
  have base : SIM_ID_BASE = taken.setWidth 128 := by decide
  rw [sim_actor_id,BitVec.setWidth_or,← base,← BitVec.or_assoc,BitVec.or_comm SIM_ID_BASE]

theorem id_eq_iff {ord ord' : Nat} (small : ord < 2 ^ 64) (small' : ord' < 2 ^ 64) (inc inc' : Nat) :
    sim_actor_id ord inc = sim_actor_id ord' inc' ↔
      ord = ord' ∧ BitVec.ofNat 64 inc &&& ~~~taken = BitVec.ofNat 64 inc' &&& ~~~taken := by
  rw [← or_eq_or_iff]
  constructor
  · intro same
    refine ⟨ord_of_id small small' same,?_⟩
    rw [← low_half ord inc,same,low_half]
  · rintro ⟨rfl,low⟩
    rw [id_eq_halves,low,← id_eq_halves]

/-- The ids of an actor after each of its first `restarts` restarts are distinct. -/
def AllApart (ord restarts : Nat) : Prop :=
  ∀ inc inc', inc ≤ restarts → inc' ≤ restarts → sim_actor_id ord inc = sim_actor_id ord inc' → inc = inc'

theorem allApart_iff (ord restarts : Nat) : AllApart ord restarts ↔ restarts < 2 ^ 21 := by
  constructor
  · intro apart
    by_contra many
    have clash : sim_actor_id ord 0 = sim_actor_id ord (2 ^ 21) := by
      rw [id_eq_halves,id_eq_halves]
      congr 2
    exact absurd (apart 0 (2 ^ 21) (Nat.zero_le _) (by omega) clash) (by decide)
  · intro few inc inc' small small' same
    have low := low_bits ord inc
    rw [same,low_bits,Nat.mod_eq_of_lt (by omega),Nat.mod_eq_of_lt (by omega)] at low
    exact low.symm

/-- Two ids tell their ordinals and incarnations apart except for two incarnations
    of one actor that differ only in bits of the base; so the ids of an actor are
    all distinct exactly as long as it is restarted fewer than two million times. -/
theorem ids_apart_iff (o₁ i₁ o₂ i₂ : UInt64) (ord restarts : Nat) :
    ((sim_actor_id o₁.toNat i₁.toNat = sim_actor_id o₂.toNat i₂.toNat → o₁ = o₂ ∧ i₁ = i₂) ↔
      (o₁ = o₂ → i₁ &&& ~~~ 0xA77C70B151600000 = i₂ &&& ~~~ 0xA77C70B151600000 → i₁ = i₂)) ∧
    (AllApart ord restarts ↔ restarts < 2 ^ 21) := by
  refine ⟨?_,allApart_iff ord restarts⟩
  have ordinals : o₁.toNat = o₂.toNat ↔ o₁ = o₂ := UInt64.toNat_inj
  have free : BitVec.ofNat 64 i₁.toNat &&& ~~~taken = BitVec.ofNat 64 i₂.toNat &&& ~~~taken ↔
      i₁ &&& ~~~ 0xA77C70B151600000 = i₂ &&& ~~~ 0xA77C70B151600000 := by
    have mask : ~~~taken = (~~~ 0xA77C70B151600000 : UInt64).toBitVec := by decide
    rw [mask,← UInt64.toBitVec_inj,UInt64.toBitVec_and,UInt64.toBitVec_and]
    simp
  rw [id_eq_iff o₁.toNat_lt o₂.toNat_lt,ordinals,free]
  constructor
  · intro unique ords bits
    exact (unique ⟨ords,bits⟩).2
  · rintro unique ⟨ords,bits⟩
    exact ⟨ords,unique ords bits⟩

/-- The incarnation after two million restarts has the id of the first one. -/
theorem restarted_id_repeats :
    ¬ ∀ o₁ i₁ o₂ i₂ : UInt64, sim_actor_id o₁.toNat i₁.toNat = sim_actor_id o₂.toNat i₂.toNat → o₁ = o₂ ∧ i₁ = i₂ := by
  intro unique
  exact absurd (unique 0 0 0 2097152 (by decide)).2 (by decide)

end ActorKit.Sim.Identities
