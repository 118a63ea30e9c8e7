import Mathlib.Data.List.Induction

/-!
# Who was served last

A log of services, each stamped with the tick it happened in. Where ticks go on,
a smaller last stamp means an earlier last service; two services of one tick have
the same stamp, whatever their order.
-/

namespace ActorKit.Recency
variable {κ : Type} [DecidableEq κ] {log : List (κ × Nat)} {a b : κ}

/-- The tick of the last service of `a`, 0 when there was none. -/
def stamp (log : List (κ × Nat)) (a : κ) : Nat := log.foldl (fun last e => if e.1 = a then e.2 else last) 0

/-- Every service of `a` is followed by one of `b`. -/
def NoLater (log : List (κ × Nat)) (a b : κ) : Prop :=
  ∀ before tick after, log = before ++ (a,tick) :: after → ∃ e ∈ after, e.1 = b

theorem stamp_append (log : List (κ × Nat)) (e : κ × Nat) (a : κ) :
    stamp (log ++ [e]) a = if e.1 = a then e.2 else stamp log a := by
  simp only [stamp,List.foldl_append,List.foldl_cons,List.foldl_nil]

/-- The last service of an actor, if it was ever served. -/
theorem stamp_cases (log : List (κ × Nat)) (a : κ) :
    (stamp log a = 0 ∧ ∀ e ∈ log, e.1 ≠ a) ∨ (a,stamp log a) ∈ log := by
  induction log using List.reverseRecOn with
  | nil => exact .inl ⟨rfl,fun _ member => by cases member⟩
  | append_singleton log e ih =>
    rw [stamp_append]
    by_cases own : e.1 = a
    · subst own
      simp
    · rw [if_neg own]
      refine ih.imp (fun none => ⟨none.1,fun e' member => ?_⟩) (List.mem_append_left _)
      rcases List.mem_append.mp member with old | new
      · exact none.2 e' old
      · rw [List.mem_singleton.mp new]
        exact own

theorem le_stamp (ordered : log.Pairwise (fun e e' => e.2 ≤ e'.2)) {tick : Nat} (served : (a,tick) ∈ log) :
    tick ≤ stamp log a := by
  induction log using List.reverseRecOn with
  | nil => cases served
  | append_singleton log e ih =>
    obtain ⟨before,-,last⟩ := List.pairwise_append.mp ordered
    rw [stamp_append]
    rcases List.mem_append.mp served with old | new
    · by_cases own : e.1 = a
      · rw [if_pos own]
        exact last _ old e (List.mem_singleton_self e)
      · rw [if_neg own]
        exact ih before old
    · rw [← List.mem_singleton.mp new]
      simp

/-- A service of `a` that none of `b` follows was no earlier than the last of `b`. -/
theorem stamp_le_of_unfollowed (ordered : log.Pairwise (fun e e' => e.2 ≤ e'.2)) {before after : List (κ × Nat)}
    {tick : Nat} (split : log = before ++ (a,tick) :: after) (other : a ≠ b) (none : ∀ e ∈ after, e.1 ≠ b) :
    stamp log b ≤ stamp log a := by
  have served : (a,tick) ∈ log := by simp [split]
  refine Nat.le_trans ?_ (le_stamp ordered served)
  rw [split] at ordered
  obtain ⟨-,-,last⟩ := List.pairwise_append.mp ordered
  rcases stamp_cases log b with never | ever
  · omega
  · rw [split] at ever
    rcases List.mem_append.mp ever with earlier | later
    · have bounded := last _ earlier _ List.mem_cons_self
      rw [← split] at bounded
      exact bounded
    · rcases List.mem_cons.mp later with same | beyond
      · exact absurd (Prod.mk.inj same).1.symm other
      · exact absurd rfl (none _ beyond)

theorem noLater_of_stamp_lt (ordered : log.Pairwise (fun e e' => e.2 ≤ e'.2)) (less : stamp log a < stamp log b) :
    NoLater log a b := by
  intro before tick after split
  by_contra unfollowed
  have other : a ≠ b := by
    rintro rfl
    exact absurd less (Nat.lt_irrefl _)
  have bounded := stamp_le_of_unfollowed ordered split other (fun e member own => unfollowed ⟨e,member,own⟩)
  omega

/-- When every tick has one service at most, equal stamps are those of actors
    never served. -/
theorem noLater_of_stamp_eq (strict : log.Pairwise (fun e e' => e.2 < e'.2)) (positive : ∀ e ∈ log, 0 < e.2)
    (other : a ≠ b) (same : stamp log a = stamp log b) : NoLater log a b := by
  intro before tick after split
  have ordered := strict.imp (fun {e e'} less => Nat.le_of_lt less)
  have served : (a,tick) ∈ log := by simp [split]
  have first := le_stamp ordered served
  have some_ := positive _ served
  rcases stamp_cases log a with none | lastA
  · omega
  · rcases stamp_cases log b with none | lastB
    · omega
    · -- two services of one tick are the same service
      obtain ⟨i,boundA,atA⟩ := List.getElem_of_mem lastA
      obtain ⟨j,boundB,atB⟩ := List.getElem_of_mem lastB
      have increasing := List.pairwise_iff_getElem.mp strict
      have ticks : log[i].2 = log[j].2 := by rw [atA,atB,same]
      obtain less | equal | greater := Nat.lt_trichotomy i j
      · have := increasing i j boundA boundB less
        omega
      · subst equal
        rw [atA] at atB
        exact absurd (Prod.mk.inj atB).1 other
      · have := increasing j i boundB boundA greater
        omega

end ActorKit.Recency
