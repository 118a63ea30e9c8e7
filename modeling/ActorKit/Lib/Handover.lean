import ActorKit.Lib.Transition
import Mathlib.Data.List.Perm.Subperm

/-!
# Handing over

Several parties hold items and hand them out, one party at a time. What they hold
together and what has been handed out stays the same collection, or shrinks where
a party may drop what it holds.
-/

namespace ActorKit.Handover
open ActorKit.Transition
variable {α β σ lab : Type}

/-- One party hands over the first part of what it holds. -/
theorem flatMap_set {holds : α → List β} {parties : List α} {i : Nat} {old : α} (found : parties[i]? = some old) {new : α}
    {given lost : List β} (split : (holds old).Perm (given ++ holds new ++ lost)) :
    (given ++ (parties.set i new).flatMap holds ++ lost).Perm (parties.flatMap holds) := by
  induction parties generalizing i with
  | nil => cases found
  | cons x parties ih =>
    cases i with
    | zero =>
      cases found
      simp only [List.set_cons_zero,List.flatMap_cons]
      have first : (given ++ holds new ++ (parties.flatMap holds ++ lost)).Perm
          (given ++ holds new ++ (lost ++ parties.flatMap holds)) := List.perm_append_comm.append_left _
      simpa only [List.append_assoc] using first.trans (by simpa only [List.append_assoc] using
        (split.append_right (parties.flatMap holds)).symm)
    | succ i =>
      have rest := ih (i := i) (by simpa using found)
      simp only [List.set_cons_succ,List.flatMap_cons]
      have later : (given ++ holds x ++ ((parties.set i new).flatMap holds ++ lost)).Perm
          (holds x ++ given ++ ((parties.set i new).flatMap holds ++ lost)) := List.perm_append_comm.append_right _
      simpa only [List.append_assoc] using later.trans (by simpa only [List.append_assoc] using rest.append_left (holds x))

/-- What is handed out along a run, and what is still held, come from what was
    held at its start. `R` says how what is held may change besides. -/
theorem handed_out {step : σ → lab → Option σ} {ok : σ → lab → Prop} {init s : σ} {Inv : σ → Prop} (out held : σ → List β)
    {R : List β → List β → Prop} (same : ∀ x, R x x) (trans : ∀ x y z, R x y → R y z → R x z)
    (under : ∀ x y given, R x y → R (given ++ x) (given ++ y)) (starts : Inv init)
    (one : ∀ s a s', Inv s → ok s a → step s a = some s' →
      Inv s' ∧ ∃ given, out s' = out s ++ given ∧ R (given ++ held s') (held s))
    (reached : Reach step ok init s) :
    Inv s ∧ ∃ given, out s = out init ++ given ∧ R (given ++ held s) (held init) := by
  induction reached with
  | start => exact ⟨starts,[],by simp,same _⟩
  | @next s s' a _ allowed stepped ih =>
    obtain ⟨inv,before,grown,kept⟩ := ih
    obtain ⟨inv',given,grows,keeps⟩ := one s a s' inv allowed stepped
    refine ⟨inv',before ++ given,by rw [grows,grown,List.append_assoc],?_⟩
    rw [List.append_assoc]
    exact trans _ _ _ (under _ _ before keeps) kept

end ActorKit.Handover
