import ActorKit.Queue
import Mathlib.Data.List.Perm.Basic

/-!
# Batch steals and their limit

`steal_batch` compares its count with the limit between two victims only, counts
one for every batch whatever its size, and pushes the head of a batch behind the
rest of it. No task is lost. The count is exact, within the limit and the order
kept exactly when every steal moves a single task and finds the limit not yet
reached.
-/

namespace ActorKit.StealBatch
open ActorKit.queue

/-- What a batch steal should leave: as many tasks more at the destination as it
    counts, no more than the limit, none lost or duplicated, and those of one
    victim in their order. -/
structure Respected (thief : WorkStealer) (dest : List Task) (max : Nat) (thief' : WorkStealer) (dest' : List Task)
    (stolen : Nat) : Prop where
  counted : dest'.length = dest.length + stolen
  limited : stolen ≤ max
  conserved : (dest' ++ thief'.stealers.flatten).Perm (dest ++ thief.stealers.flatten)
  ordered : ∃ moved, dest' = dest ++ moved ∧ ∀ (i : Nat) victim, thief.stealers[i]? = some victim →
    ∃ taken left, victim = taken ++ left ∧ thief'.stealers[i]? = some left ∧ taken.Sublist moved

/-- Every steal from one victim moves a single task, and finds fewer than `max`
    stolen. -/
def OneByOne (max : Nat) : List (Option Nat) → List Task → Nat → Prop
  | [],_,_ => True
  | none :: answers,victim,stolen => OneByOne max answers victim stolen
  | some _ :: _,[],_ => True
  | some n :: answers,_ :: behind,stolen =>
    (behind.take n = [] ∧ stolen < max) ∧ OneByOne max answers (behind.drop n) (stolen + 1)

/-- The same for every victim that is left to visit. -/
def AllOneByOne (max : Nat) : List Nat → List (Option Nat) → List (List Task) → List Task → Nat → Prop
  | [],_,_,_,_ => True
  | idx :: rest,answers,stealers,dest,stolen => stolen < max →
    ∀ victim, stealers[idx]? = some victim → OneByOne max answers victim stolen ∧
      ∀ loot, steal_until_empty answers victim dest stolen = some loot →
        AllOneByOne max rest loot.answers (stealers.set idx []) loot.dest loot.stolen

/-- The condition on a whole call. -/
def Singly (thief : WorkStealer) (answers : List (Option Nat)) (dest : List Task) (max : Nat) : Prop :=
  AllOneByOne max (round_robin thief.index thief.stealers.length) answers thief.stealers dest 0

/-! ## One victim -/

/-- The inner loop empties its victim: what it moves, and how many it counts. -/
theorem loot_moves {answers : List (Option Nat)} {victim dest : List Task} {stolen : Nat} {loot : Loot}
    (ends : steal_until_empty answers victim dest stolen = some loot) :
    (∃ moved, loot.dest = dest ++ moved ∧ moved.Perm victim) ∧ stolen ≤ loot.stolen ∧
      loot.stolen ≤ stolen + victim.length := by
  induction answers generalizing victim dest stolen with
  | nil => cases ends
  | cons answer answers ih =>
    cases answer with
    | none => exact ih ends
    | some n =>
      cases victim with
      | nil =>
        cases ends
        exact ⟨⟨[],by simp,.refl _⟩,Nat.le_refl _,Nat.le_refl _⟩
      | cons task behind =>
        obtain ⟨⟨moved,after,same⟩,more,few⟩ := ih ends
        have sizes := List.length_drop (i := n) (l := behind)
        refine ⟨⟨behind.take n ++ [task] ++ moved,by simp [after],?_⟩,by omega,?_⟩
        · calc (behind.take n ++ [task] ++ moved).Perm (behind.take n ++ [task] ++ behind.drop n) := same.append_left _
            _ = behind.take n ++ task :: behind.drop n := by simp
            _ |>.Perm (task :: (behind.take n ++ behind.drop n)) := List.perm_middle
            _ = task :: behind := by rw [List.take_append_drop]
        · simp only [List.length_cons]
          omega

/-- The count of one victim is exact and within the limit exactly when every
    steal moves one task below it. -/
theorem oneByOne_iff {max : Nat} {answers : List (Option Nat)} {victim dest : List Task} {stolen : Nat} {loot : Loot}
    (ends : steal_until_empty answers victim dest stolen = some loot) :
    OneByOne max answers victim stolen ↔
      loot.stolen = stolen + victim.length ∧ (victim ≠ [] → loot.stolen ≤ max) := by
  induction answers generalizing victim dest stolen with
  | nil => cases ends
  | cons answer answers ih =>
    cases answer with
    | none => exact ih ends
    | some n =>
      cases victim with
      | nil =>
        cases ends
        exact iff_of_true trivial ⟨rfl,fun some => absurd rfl some⟩
      | cons task behind =>
        have later : steal_until_empty answers (behind.drop n) (dest ++ behind.take n ++ [task]) (stolen + 1) = some loot := ends
        obtain ⟨-,more,few⟩ := loot_moves later
        have rest := ih later
        have sizes := List.length_drop (i := n) (l := behind)
        have single : behind.take n = [] ↔ (behind.drop n).length = behind.length := by
          rw [← List.length_eq_zero_iff,List.length_take]
          omega
        simp only [OneByOne,rest,single,List.length_cons,ne_eq,reduceCtorEq,not_false_eq_true,true_imp_iff]
        constructor
        · rintro ⟨⟨whole,below⟩,exact_,within⟩
          refine ⟨by omega,?_⟩
          by_cases last : behind.drop n = []
          · rw [last,List.length_nil] at exact_
            omega
          · exact within last
        · rintro ⟨exact_,within⟩
          exact ⟨⟨by omega,by omega⟩,by omega,fun _ => within⟩

/-- One by one, a victim is moved in its order. -/
theorem oneByOne_ordered {max : Nat} {answers : List (Option Nat)} {victim dest : List Task} {stolen : Nat} {loot : Loot}
    (ends : steal_until_empty answers victim dest stolen = some loot) (single : OneByOne max answers victim stolen) :
    loot.dest = dest ++ victim := by
  induction answers generalizing victim dest stolen with
  | nil => cases ends
  | cons answer answers ih =>
    cases answer with
    | none => exact ih ends single
    | some n =>
      cases victim with
      | nil =>
        cases ends
        simp
      | cons task behind =>
        obtain ⟨⟨nothing,-⟩,rest⟩ := single
        have whole := List.take_append_drop n behind
        rw [nothing,List.nil_append] at whole
        rw [ih ends rest,nothing,whole]
        simp

/-! ## All victims -/

/-- Emptying one victim takes its tasks from all of them. -/
theorem flatten_set_nil {stealers : List (List Task)} {idx : Nat} {victim : List Task}
    (found : stealers[idx]? = some victim) : (victim ++ (stealers.set idx []).flatten).Perm stealers.flatten := by
  obtain ⟨inside,rfl⟩ := List.getElem?_eq_some_iff.mp found
  have emptied := (List.set_perm_cons_eraseIdx inside []).flatten
  have whole := (List.getElem_cons_eraseIdx_perm inside).flatten
  exact (emptied.append_left _).trans whole

theorem visit_moves {max : Nat} {visits : List Nat} {answers : List (Option Nat)} {stealers stealers' : List (List Task)}
    {dest dest' : List Task} {stolen stolen' : Nat}
    (ends : WorkStealer.visit max visits answers stealers dest stolen = some (stealers',dest',stolen')) :
    (dest' ++ stealers'.flatten).Perm (dest ++ stealers.flatten) ∧ stolen ≤ stolen' ∧
      dest.length + stolen' ≤ dest'.length + stolen := by
  induction visits generalizing answers stealers dest stolen with
  | nil =>
    cases ends
    exact ⟨.refl _,Nat.le_refl _,Nat.le_refl _⟩
  | cons idx rest ih =>
    unfold WorkStealer.visit at ends
    split at ends
    · cases ends
      exact ⟨.refl _,Nat.le_refl _,Nat.le_refl _⟩
    · obtain ⟨victim,found,ends⟩ := Option.bind_eq_some_iff.mp ends
      obtain ⟨loot,looted,ends⟩ := Option.bind_eq_some_iff.mp ends
      obtain ⟨⟨moved,after,same⟩,more,few⟩ := loot_moves looted
      obtain ⟨perm,growth,counted⟩ := ih ends
      have length := same.length_eq
      rw [after] at perm counted
      simp only [List.length_append] at counted
      refine ⟨?_,by omega,by omega⟩
      calc (dest' ++ stealers'.flatten).Perm (dest ++ moved ++ (stealers.set idx []).flatten) := perm
        _ = dest ++ (moved ++ (stealers.set idx []).flatten) := List.append_assoc ..
        _ |>.Perm (dest ++ (victim ++ (stealers.set idx []).flatten)) := (same.append_right _).append_left _
        _ |>.Perm (dest ++ stealers.flatten) := (flatten_set_nil found).append_left _

/-- The count of all victims is exact and within the limit exactly when every
    steal moves one task below it. -/
theorem allOneByOne_iff {max : Nat} {visits : List Nat} {answers : List (Option Nat)}
    {stealers stealers' : List (List Task)} {dest dest' : List Task} {stolen stolen' : Nat} (below : stolen ≤ max)
    (ends : WorkStealer.visit max visits answers stealers dest stolen = some (stealers',dest',stolen')) :
    AllOneByOne max visits answers stealers dest stolen ↔
      dest'.length + stolen = dest.length + stolen' ∧ stolen' ≤ max := by
  induction visits generalizing answers stealers dest stolen with
  | nil =>
    cases ends
    exact iff_of_true trivial ⟨rfl,below⟩
  | cons idx rest ih =>
    unfold WorkStealer.visit at ends
    split at ends
    · next reached =>
      cases ends
      exact iff_of_true (fun room => absurd room (by omega)) ⟨rfl,below⟩
    · next room =>
      obtain ⟨victim,found,ends⟩ := Option.bind_eq_some_iff.mp ends
      obtain ⟨loot,looted,ends⟩ := Option.bind_eq_some_iff.mp ends
      obtain ⟨⟨moved,after,same⟩,more,few⟩ := loot_moves looted
      obtain ⟨-,growth,counted⟩ := visit_moves ends
      have length := same.length_eq
      have single : OneByOne max answers victim stolen ↔
          loot.stolen = stolen + victim.length ∧ (victim ≠ [] → loot.stolen ≤ max) := oneByOne_iff looted
      have sizes : loot.dest.length = dest.length + victim.length := by rw [after,List.length_append,length]
      have unfolded : AllOneByOne max (idx :: rest) answers stealers dest stolen ↔
          OneByOne max answers victim stolen ∧
            AllOneByOne max rest loot.answers (stealers.set idx []) loot.dest loot.stolen := by
        constructor
        · intro all
          obtain ⟨first,later⟩ := all (by omega) victim found
          exact ⟨first,later loot looted⟩
        · rintro ⟨first,later⟩ _ victim' found'
          rw [found] at found'
          cases found'
          refine ⟨first,fun loot' looted' => ?_⟩
          rw [looted] at looted'
          cases looted'
          exact later
      rw [unfolded,single]
      constructor
      · rintro ⟨⟨exact_,within⟩,later⟩
        have within' : loot.stolen ≤ max := by
          by_cases empty : victim = []
          · rw [empty,List.length_nil] at exact_
            omega
          · exact within empty
        obtain ⟨rest,limit⟩ := (ih within' ends).mp later
        exact ⟨by omega,limit⟩
      · rintro ⟨exact_,limit⟩
        exact ⟨⟨by omega,fun _ => by omega⟩,(ih (by omega) ends).mpr ⟨by omega,limit⟩⟩

/-- One by one, every victim is moved in its order. -/
theorem allOneByOne_ordered {max : Nat} {visits : List Nat} {answers : List (Option Nat)}
    {stealers stealers' : List (List Task)} {dest dest' : List Task} {stolen stolen' : Nat}
    (ends : WorkStealer.visit max visits answers stealers dest stolen = some (stealers',dest',stolen'))
    (single : AllOneByOne max visits answers stealers dest stolen) :
    ∃ moved, dest' = dest ++ moved ∧ ∀ (i : Nat) victim, stealers[i]? = some victim →
      ∃ taken left, victim = taken ++ left ∧ stealers'[i]? = some left ∧ taken.Sublist moved := by
  induction visits generalizing answers stealers dest stolen with
  | nil =>
    cases ends
    exact ⟨[],by simp,fun i victim found => ⟨[],victim,rfl,found,.refl _⟩⟩
  | cons idx rest ih =>
    unfold WorkStealer.visit at ends
    split at ends
    · cases ends
      exact ⟨[],by simp,fun i victim found => ⟨[],victim,rfl,found,.refl _⟩⟩
    · next room =>
      obtain ⟨first,found,ends⟩ := Option.bind_eq_some_iff.mp ends
      obtain ⟨loot,looted,ends⟩ := Option.bind_eq_some_iff.mp ends
      obtain ⟨one,later⟩ := single (by omega) first found
      obtain ⟨moved,after,each⟩ := ih ends (later loot looted)
      have inside := (List.getElem?_eq_some_iff.mp found).1
      refine ⟨first ++ moved,by rw [after,oneByOne_ordered looted one,List.append_assoc],fun i victim at_ => ?_⟩
      by_cases here : idx = i
      · subst here
        rw [found] at at_
        cases at_
        obtain ⟨taken,left,nothing,there,-⟩ := each idx [] (List.getElem?_set_self inside)
        obtain ⟨-,rfl⟩ := List.append_eq_nil_iff.mp nothing.symm
        exact ⟨first,[],by simp,there,List.sublist_append_left _ _⟩
      · obtain ⟨taken,left,split,there,part⟩ := each i victim (by rw [List.getElem?_set_ne here]; exact at_)
        exact ⟨taken,left,split,there,part.trans (List.sublist_append_right _ _)⟩

/-- A batch steal respects its limit and counts what it moves, in order, exactly
    when every steal moves a single task and finds the limit not yet reached. It
    never loses a task. -/
theorem steal_batch_respected_iff (thief : WorkStealer) (answers : List (Option Nat)) (dest : List Task) (max : Nat)
    (thief' : WorkStealer) (dest' : List Task) (stolen : Nat)
    (returns : thief.steal_batch answers dest max = some (thief',dest',stolen)) :
    (dest' ++ thief'.stealers.flatten).Perm (dest ++ thief.stealers.flatten) ∧
      (Respected thief dest max thief' dest' stolen ↔ Singly thief answers dest max) := by
  unfold WorkStealer.steal_batch at returns
  split at returns
  · next none =>
    cases returns
    rw [List.isEmpty_iff] at none
    refine ⟨.refl _,iff_of_true ⟨rfl,Nat.zero_le _,.refl _,[],by simp,fun i victim found => ?_⟩ ?_⟩
    · rw [none] at found
      cases found
    · unfold Singly
      rw [none]
      exact trivial
  · obtain ⟨⟨stealers,after,count⟩,ends,same⟩ := Option.bind_eq_some_iff.mp returns
    cases same
    obtain ⟨perm,-,-⟩ := visit_moves ends
    have exact_ := allOneByOne_iff (Nat.zero_le max) ends
    refine ⟨perm,?_⟩
    constructor
    · intro respected
      have counted := respected.counted
      exact exact_.mpr ⟨by omega,respected.limited⟩
    · intro single
      obtain ⟨counted,limited⟩ := exact_.mp single
      exact ⟨by omega,limited,perm,allOneByOne_ordered ends single⟩

/-- Tasks of different actors. -/
def taskFor (id : ActorId) : Task :=
  { actor_id := id,message := { sender := none,payload := .Empty,priority := .Normal },priority := .Normal }

/-- Two victims; the round begins at the second one, which holds two tasks. -/
def twoVictims : WorkStealer := { stealers := [[taskFor ⟨0⟩],[taskFor ⟨1⟩,taskFor ⟨2⟩]],index := 1 }

/-- Stolen one by one, the second victim reaches the limit of two exactly, and
    the first one is spared. -/
theorem steal_batch_respected_two :
    twoVictims.steal_batch [none,some 0,some 0,some 0] [] 2 =
      some ({ stealers := [[taskFor ⟨0⟩],[]],index := 2 },[taskFor ⟨1⟩,taskFor ⟨2⟩],2) ∧
    Respected twoVictims [] 2 { stealers := [[taskFor ⟨0⟩],[]],index := 2 } [taskFor ⟨1⟩,taskFor ⟨2⟩] 2 := by
  have returns : twoVictims.steal_batch [none,some 0,some 0,some 0] [] 2 =
      some ({ stealers := [[taskFor ⟨0⟩],[]],index := 2 },[taskFor ⟨1⟩,taskFor ⟨2⟩],2) := by decide
  have ends : WorkStealer.visit 2 [1,0] [none,some 0,some 0,some 0] twoVictims.stealers [] 0 =
      some ([[taskFor ⟨0⟩],[]],[taskFor ⟨1⟩,taskFor ⟨2⟩],2) := by decide
  have single : Singly twoVictims [none,some 0,some 0,some 0] [] 2 := (allOneByOne_iff (by decide) ends).mpr (by decide)
  exact ⟨returns,(steal_batch_respected_iff _ _ _ _ _ _ _ returns).2.mpr single⟩

/-- One victim with three tasks, of which the library moves half at a time. With
    a limit of one the count is two and three tasks are moved, the first one behind
    the second. -/
theorem steal_batch_exceeds_limit :
    WorkStealer.steal_batch { stealers := [[taskFor ⟨0⟩,taskFor ⟨1⟩,taskFor ⟨2⟩]] } [some 1,some 0,some 0] [] 1 =
      some ({ stealers := [[]],index := 1 },[taskFor ⟨1⟩,taskFor ⟨0⟩,taskFor ⟨2⟩],2) ∧
    ¬ Respected { stealers := [[taskFor ⟨0⟩,taskFor ⟨1⟩,taskFor ⟨2⟩]] } [] 1 { stealers := [[]],index := 1 }
      [taskFor ⟨1⟩,taskFor ⟨0⟩,taskFor ⟨2⟩] 2 := by
  refine ⟨by decide,fun respected => ?_⟩
  have limited := respected.limited
  omega

end ActorKit.StealBatch
