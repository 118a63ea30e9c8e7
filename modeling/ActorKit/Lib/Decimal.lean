import Mathlib.Data.List.TakeWhile

/-!
# Numbers in texts

A number written in decimal can be read back from a text it begins, when what
follows it does not begin with a digit.
-/

namespace ActorKit.Decimal

/-- A text that does not begin with a digit. -/
def Breaks (text : List Char) : Prop := ∀ c ∈ text.head?, c.isDigit = false

/-- The digits a text begins with. -/
theorem takeWhile_digits (n : Nat) {text : List Char} (breaks : Breaks text) :
    ((toString n).toList ++ text).takeWhile Char.isDigit = Nat.toDigits 10 n := by
  have digits : (toString n).toList = Nat.toDigits 10 n := Nat.toList_repr
  have all : ∀ c ∈ Nat.toDigits 10 n, c.isDigit = true :=
    fun c member => Nat.isDigit_of_mem_toDigits (by decide) (by decide) member
  rw [digits,List.takeWhile_append_of_pos all]
  cases text with
  | nil => simp
  | cons c rest =>
    have stop : c.isDigit = false := breaks c (by simp)
    simp [stop]

/-- The number a text begins with, and what follows it. -/
theorem decimal_cancel {n m : Nat} {text text' : List Char} (breaks : Breaks text) (breaks' : Breaks text')
    (same : (toString n).toList ++ text = (toString m).toList ++ text') : n = m ∧ text = text' := by
  have digits := congrArg (List.takeWhile Char.isDigit) same
  rw [takeWhile_digits n breaks,takeWhile_digits m breaks'] at digits
  have equal : n = m := by
    rw [← Nat.ofDigitChars_ten_toDigits (n := n),digits,Nat.ofDigitChars_ten_toDigits]
  subst equal
  exact ⟨rfl,List.append_cancel_left same⟩

end ActorKit.Decimal
