import ActorKit.Lib.Bincode
import ActorKit.Lib.Decimal
import ActorKit.Sim.World

/-!
# Names and payloads

The names of the simulated actors and of their supervisor children tell ordinals
and incarnations apart, and the payload of an application message gives its
identity back.
-/

namespace ActorKit.Sim.Texts
open ActorKit.sim ActorKit.Decimal
open ActorKit.Bincode (le value value_le)

theorem actor_name_inj {ord ord' inc inc' : Nat} (same : actor_name ord inc = actor_name ord' inc') :
    ord = ord' ∧ inc = inc' := by
  have texts := congrArg String.toList same
  simp only [actor_name,String.toList_append,List.append_assoc] at texts
  have dash : ∀ n : Nat, Breaks ("-v".toList ++ (toString n).toList) := by
    intro n c first
    cases first
    decide
  obtain ⟨ords,rest⟩ := decimal_cancel (dash inc) (dash inc') (List.append_cancel_left texts)
  have nothing : Breaks [] := fun c first => by cases first
  have incs := List.append_cancel_left rest
  rw [← List.append_nil (toString inc).toList,← List.append_nil (toString inc').toList] at incs
  exact ⟨ords,(decimal_cancel nothing nothing incs).1⟩

theorem supervisor_name_inj {ord ord' : Nat} (same : supervisor_name ord = supervisor_name ord') : ord = ord' := by
  have texts := congrArg String.toList same
  simp only [supervisor_name,String.toList_append] at texts
  have digits := List.append_cancel_left texts
  have nothing : Breaks [] := fun c first => by cases first
  rw [← List.append_nil (toString ord).toList,← List.append_nil (toString ord').toList] at digits
  exact (decimal_cancel nothing nothing digits).1

theorem to_le_bytes_low (width x : Nat) : (List.range width).map (fun i => UInt8.ofNat (x / 256 ^ i)) = le width x := by
  induction width generalizing x with
  | zero => rfl
  | succ width ih =>
    have shifted : ∀ i, x / 256 ^ (i + 1) = x / 256 / 256 ^ i := by
      intro i
      rw [Nat.div_div_eq_div_mul,Nat.pow_succ,Nat.mul_comm]
    rw [le,← ih,List.range_succ_eq_map,List.map_cons,List.map_map]
    simp [Function.comp_def,shifted]

theorem from_le_bytes_value (bytes : List UInt8) : from_le_bytes bytes = .ofNat (value bytes) := by
  have same : bytes.foldr (fun b rest => b.toNat + 256 * rest) 0 = value bytes := by
    induction bytes with
    | nil => rfl
    | cons b bytes ih => rw [List.foldr_cons,ih,value]
  rw [from_le_bytes,same]

theorem from_to_le_bytes (x : UInt64) : from_le_bytes (to_le_bytes x) = x := by
  have small : x.toNat % 256 ^ 8 = x.toNat := Nat.mod_eq_of_lt x.toNat_lt
  rw [to_le_bytes,to_le_bytes_low,from_le_bytes_value,value_le,small]
  exact UInt64.ofNat_toNat

/-- The identity of an application message is read back. -/
theorem tag_of_app_message (priority : Priority) {mid : Nat} (fits : mid < 2 ^ 64) :
    ∃ tag : UInt64, tag_of (app_message priority mid).payload = .Custom tag ∧ tag.toNat = mid := by
  refine ⟨.ofNat mid,?_,by simpa using Nat.mod_eq_of_lt fits⟩
  have eight : (to_le_bytes (.ofNat mid)).length = 8 := by simp [to_le_bytes]
  simp only [app_message,tag_of,eight,if_true,from_to_le_bytes]

end ActorKit.Sim.Texts
