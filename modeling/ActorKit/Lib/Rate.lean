import ActorKit.Lib.Window

/-!
# Rates

Spaced grants are rare over any length of time: `limit` of them in every window
that the time reaches into, and no more.
-/

namespace ActorKit.Window

/-- Spaced grants between two readings, of which the later one lies less than `k`
    windows after the earlier one. -/
theorem Spaced.length_le {within limit : Nat} {grants : List Grant} (spaced : Spaced within limit grants)
    (positive : 0 < limit) (sorted : (grants.map (·.2)).Pairwise (· ≤ ·)) (ordered : ∀ g ∈ grants, g.1 ≤ g.2) {a b k : Nat}
    (after : ∀ g ∈ grants, a ≤ g.2) (before : ∀ g ∈ grants, g.1 ≤ b) (near : b - a < k * within) :
    grants.length ≤ limit * k := by
  induction k generalizing a grants with
  | zero => omega
  | succ k ih =>
    rw [Nat.mul_succ]
    by_cases few : grants.length ≤ limit
    · omega
    · -- The grant after the first `limit` ones opens the next window.
      cases front : grants.take limit with
      | nil =>
        have length := congrArg List.length front
        rw [List.length_take,List.length_nil] at length
        omega
      | cons first between =>
        cases back : grants.drop limit with
        | nil =>
          have short := List.drop_eq_nil_iff.mp back
          omega
        | cons next later =>
          have whole : grants = first :: between ++ next :: later := by rw [← front,← back,List.take_append_drop]
          have size : between.length + 1 = limit := by
            have length := congrArg List.length front
            rw [List.length_take,List.length_cons] at length
            omega
          have picked : (first :: between ++ [next]).Sublist grants := by
            rw [whole]
            exact (List.Sublist.refl _).append (List.singleton_sublist.mpr List.mem_cons_self)
          have far := spaced first between next picked size
          have opens := after first (by rw [whole]; simp)
          have closes := before next (by rw [whole]; simp)
          have reached := after next (by rw [whole]; simp)
          have inside := ordered next (by rw [whole]; simp)
          rw [Nat.succ_mul] at near
          have part : (next :: later).Sublist grants := by
            rw [← back]
            exact List.drop_sublist limit grants
          have order := sorted.sublist (part.map (·.2))
          have rest := ih (spaced.sublist part) order (fun g member => ordered g (part.subset member)) (a := a + within)
            (fun g member => by
              rw [List.map_cons,List.pairwise_cons] at order
              rcases List.mem_cons.mp member with rfl | listed
              · omega
              · have := order.1 g.2 (List.mem_map_of_mem listed)
                omega)
            (fun g member => before g (part.subset member)) (by omega)
          rw [whole,List.length_append,List.length_cons]
          omega

end ActorKit.Window
