import Mathlib.InformationTheory.Coding.UniquelyDecodable
import Mathlib.Tactic.Common

/-!
# Codes

A code gives every symbol a word. When no word is the beginning of another one,
words that follow each other without a separator are told apart again.
-/

namespace ActorKit.Codes
open InformationTheory (UniquelyDecodable)
variable {α β : Type} {word : α → List β}

/-- No word is the beginning of the word of another symbol. -/
def PrefixFree (word : α → List β) : Prop := ∀ a b, word a <+: word b → a = b

theorem PrefixFree.injective (free : PrefixFree word) : Function.Injective word :=
  fun a b same => free a b (same ▸ List.prefix_refl _)

/-- The first word of a text is known, and so is what follows it. -/
theorem PrefixFree.cancel (free : PrefixFree word) {a b : α} {u v : List β} (same : word a ++ u = word b ++ v) :
    a = b ∧ u = v := by
  have symbols : a = b := by
    have left : word a <+: word b ++ v := same ▸ List.prefix_append _ _
    have right : word b <+: word b ++ v := List.prefix_append _ _
    rcases List.prefix_or_prefix_of_prefix left right with shorter | longer
    · exact free a b shorter
    · exact (free b a longer).symm
  subst symbols
  exact ⟨rfl,List.append_cancel_left same⟩

/-- Words of one length are a code when they differ. -/
theorem prefixFree_of_length {width : Nat} (sized : ∀ a, (word a).length = width)
    (injective : Function.Injective word) : PrefixFree word := by
  intro a b beginning
  exact injective (beginning.eq_of_length (by rw [sized,sized]))

/-- Words that start with a tag, when the tag fixes the length of what follows. -/
theorem prefixFree_of_tag {tag : α → β} {body : α → List β}
    (sized : ∀ a b, tag a = tag b → (body a).length = (body b).length)
    (injective : ∀ a b, tag a = tag b → body a = body b → a = b) : PrefixFree (fun a => tag a :: body a) := by
  intro a b beginning
  obtain ⟨tags,bodies⟩ := List.cons_prefix_cons.mp beginning
  exact injective a b tags (bodies.eq_of_length (sized a b tags))

/-- The words of a text are uniquely decoded. -/
theorem PrefixFree.uniquelyDecodable (free : PrefixFree word) (nonempty : ∀ a, word a ≠ []) :
    UniquelyDecodable (Set.range word) := by
  intro xs
  induction xs with
  | nil =>
    intro ys _ coded same
    cases ys with
    | nil => rfl
    | cons y ys =>
      obtain ⟨b,rfl⟩ := coded y List.mem_cons_self
      exact absurd (List.append_eq_nil_iff.mp same.symm).1 (nonempty b)
  | cons x xs ih =>
    intro ys codedX codedY same
    obtain ⟨a,rfl⟩ := codedX x List.mem_cons_self
    cases ys with
    | nil => exact absurd (List.append_eq_nil_iff.mp same).1 (nonempty a)
    | cons y ys =>
      obtain ⟨b,rfl⟩ := codedY y List.mem_cons_self
      obtain ⟨rfl,rest⟩ := free.cancel same
      have tails := ih ys (fun w member => codedX w (List.mem_cons_of_mem _ member))
        (fun w member => codedY w (List.mem_cons_of_mem _ member)) rest
      rw [tails]

/-- Two texts are written alike exactly when they are the same. -/
theorem PrefixFree.flatMap_inj (free : PrefixFree word) (nonempty : ∀ a, word a ≠ []) {xs ys : List α} :
    xs.flatMap word = ys.flatMap word ↔ xs = ys := by
  constructor
  · intro same
    have coded : ∀ zs : List α, ∀ w ∈ zs.map word, w ∈ Set.range word := by
      intro zs w member
      obtain ⟨a,-,rfl⟩ := List.mem_map.mp member
      exact ⟨a,rfl⟩
    rw [List.flatMap_def,List.flatMap_def] at same
    exact (List.map_inj_right free.injective).mp
      (free.uniquelyDecodable nonempty _ _ (coded xs) (coded ys) same)
  · rintro rfl
    rfl

end ActorKit.Codes
