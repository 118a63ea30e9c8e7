import Mathlib.Algebra.BigOperators.Group.List.Basic
import Mathlib.Algebra.Order.Ring.Nat
import Mathlib.Tactic.Ring
import ActorKit.Lib.Transition

/-!
# Runs that end

A system whose steps, those of a certain kind, make a number smaller: no run of
such steps is longer than the number, every run can be continued until no such
step is left, and what holds wherever none is left holds at the end of them all.
The number of a system of threads is a sum of ranks, one for each thread.
-/

namespace ActorKit.Ending
open ActorKit.Transition
variable {σ α : Type}

/-- The states reached from `s` by `n` steps that all meet `ok`. -/
inductive Takes (step : σ → α → Option σ) (ok : σ → α → Prop) (s : σ) : Nat → σ → Prop where
  | start : Takes step ok s 0 s
  | next {n : Nat} {s' s'' : σ} {a : α} (before : Takes step ok s n s') (allowed : ok s' a)
      (stepped : step s' a = some s'') : Takes step ok s (n + 1) s''

/-- No step that meets the condition can be taken. -/
def Stuck (step : σ → α → Option σ) (ok : σ → α → Prop) (s : σ) : Prop := ∀ a, ok s a → step s a = none

/-- Every run from `s` of steps that meet the condition ends, and where it cannot
    go on the property holds. -/
structure ComesTo (step : σ → α → Option σ) (ok : σ → α → Prop) (P : σ → Prop) (s : σ) : Prop where
  bounded : ∃ bound, ∀ n s', Takes step ok s n s' → n ≤ bound
  continues : ∀ n s', Takes step ok s n s' → ∃ m s'', Takes step ok s' m s'' ∧ Stuck step ok s''
  settled : ∀ n s', Takes step ok s n s' → Stuck step ok s' → P s'

variable {step : σ → α → Option σ} {ok : σ → α → Prop} {Inv P : σ → Prop} {measure : σ → Nat}

theorem Takes.reach {init s s' : σ} {n : Nat} (reached : Reach step ok init s) (takes : Takes step ok s n s') :
    Reach step ok init s' := by
  induction takes with
  | start => exact reached
  | next _ allowed stepped ih => exact .next ih allowed stepped

theorem Takes.append {s s' s'' : σ} {n m : Nat} (first : Takes step ok s n s') (second : Takes step ok s' m s'') :
    Takes step ok s (n + m) s'' := by
  induction second with
  | start => exact first
  | next _ allowed stepped ih => exact .next ih allowed stepped

/-- The first step of a run. -/
theorem Takes.head {s s' : σ} {n : Nat} (takes : Takes step ok s (n + 1) s') :
    ∃ a first, ok s a ∧ step s a = some first ∧ Takes step ok first n s' := by
  induction n generalizing s' with
  | zero =>
    cases takes with
    | next before allowed stepped =>
      cases before
      exact ⟨_,_,allowed,stepped,.start⟩
  | succ n ih =>
    cases takes with
    | next before allowed stepped =>
      obtain ⟨a,first,met,begun,rest⟩ := ih before
      exact ⟨a,first,met,begun,.next rest allowed stepped⟩

/-- Where there is no choice, every run is a part of one that is stuck at its
    end. -/
theorem takes_split {step : σ → Unit → Option σ} {ok : σ → Unit → Prop} {s s' last : σ} {m n : Nat}
    (part : Takes step ok s m s') (whole : Takes step ok s n last) (stuck : Stuck step ok last) :
    m ≤ n ∧ Takes step ok s' (n - m) last := by
  induction m generalizing s n with
  | zero =>
    cases part
    exact ⟨Nat.zero_le _,whole⟩
  | succ m ih =>
    obtain ⟨_,first,met,begun,rest⟩ := part.head
    cases n with
    | zero =>
      cases whole
      rw [stuck () met] at begun
      cases begun
    | succ n =>
      obtain ⟨_,first',-,begun',rest'⟩ := whole.head
      rw [begun] at begun'
      cases begun'
      obtain ⟨less,taken⟩ := ih rest rest'
      exact ⟨by omega,by rwa [Nat.succ_sub_succ]⟩

section
variable (decreases : ∀ s a s', Inv s → ok s a → step s a = some s' → Inv s' ∧ measure s' < measure s)
include decreases

/-- A run keeps the invariant and is no longer than what the measure falls by. -/
theorem takes_le {s s' : σ} {n : Nat} (inv : Inv s) (takes : Takes step ok s n s') :
    Inv s' ∧ n + measure s' ≤ measure s := by
  induction takes with
  | start => exact ⟨inv,by omega⟩
  | next _ allowed stepped ih =>
    obtain ⟨kept,fewer⟩ := decreases _ _ _ ih.1 allowed stepped
    exact ⟨kept,by have := ih.2; omega⟩

theorem takes_stuck {s : σ} (inv : Inv s) : ∃ n s', Takes step ok s n s' ∧ Stuck step ok s' := by
  induction left : measure s using Nat.strongRecOn generalizing s with
  | _ left ih =>
    subst left
    by_cases stuck : Stuck step ok s
    · exact ⟨0,s,.start,stuck⟩
    · obtain ⟨a,refused⟩ := Classical.not_forall.mp stuck
      obtain ⟨allowed,moves⟩ := Classical.not_imp.mp refused
      obtain ⟨next,stepped⟩ := Option.ne_none_iff_exists'.mp moves
      obtain ⟨kept,fewer⟩ := decreases s a next inv allowed stepped
      obtain ⟨m,s',takes,ended⟩ := ih _ fewer kept rfl
      exact ⟨1 + m,s',(Takes.next .start allowed stepped).append takes,ended⟩

variable (Inv measure) in
theorem comesTo_of_measure (settles : ∀ s, Inv s → Stuck step ok s → P s) {s : σ} (inv : Inv s) :
    ComesTo step ok P s where
  bounded := ⟨measure s,fun n s' takes => by have := (takes_le decreases inv takes).2; omega⟩
  continues _ _ takes := takes_stuck decreases (takes_le decreases inv takes).1
  settled _ _ takes stuck := settles _ (takes_le decreases inv takes).1 stuck

end

/-! ## Ranks -/

/-- Ranks that grow by little each. -/
theorem ranks_le {f g : Nat → α → Nat} {extra : Nat} (items : List α) (grown : ∀ k x, g k x ≤ f k x + extra) :
    (items.mapIdx g).sum ≤ (items.mapIdx f).sum + extra * items.length := by
  induction items generalizing f g with
  | nil => simp
  | cons x rest ih =>
    have tail := ih (f := fun k => f (k + 1)) (g := fun k => g (k + 1)) (fun k y => grown (k + 1) y)
    have head := grown 0 x
    simp only [List.mapIdx_cons,List.sum_cons,List.length_cons,Nat.mul_succ]
    omega

/-- One thread goes on, and the ranks of the others grow by little each. -/
theorem ranks_set (f g : Nat → α → Nat) (extra : Nat) {items : List α} {i : Nat} {old : α} (found : items[i]? = some old) (new : α)
    (others : ∀ k x, k ≠ i → g k x ≤ f k x + extra) :
    ((items.set i new).mapIdx g).sum + f i old ≤ (items.mapIdx f).sum + g i new + extra * items.length := by
  induction items generalizing i f g with
  | nil => cases found
  | cons x rest ih =>
    cases i with
    | zero =>
      cases found
      have tail := ranks_le (f := fun k => f (k + 1)) (g := fun k => g (k + 1)) rest (fun k y => others (k + 1) y (by omega))
      simp only [List.set_cons_zero,List.mapIdx_cons,List.sum_cons,List.length_cons,Nat.mul_succ]
      omega
    | succ i =>
      have tail := ih (fun k => f (k + 1)) (fun k => g (k + 1)) (by simpa using found)
        (fun k y apart => others (k + 1) y (by omega))
      have head := others 0 x (by omega)
      simp only [List.set_cons_succ,List.mapIdx_cons,List.sum_cons,List.length_cons,Nat.mul_succ]
      omega

end ActorKit.Ending
