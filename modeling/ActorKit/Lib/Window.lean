import Mathlib.Data.List.Basic
import Mathlib.Order.Basic
import Mathlib.Tactic.Common

/-!
# Sliding windows

A rate limiter that remembers when it granted something and counts the grants
younger than a window. A log pruned whenever a grant is recorded counts, at
every later reading of a clock that never goes back, what the whole history
counts; and a limiter that grants only below `limit` spaces any `limit + 1`
grants over the window.
-/

namespace ActorKit.Window

/-- The readings of `log` that are younger than `within` at `now`. -/
def recent (now within : Nat) (log : List Nat) : List Nat :=
  log.filter (fun t => now - t < within)

@[simp] theorem recent_nil (now within : Nat) : recent now within [] = [] := rfl

theorem recent_append (now within : Nat) (log more : List Nat) :
    recent now within (log ++ more) = recent now within log ++ recent now within more :=
  List.filter_append ..

theorem recent_length_le (now within : Nat) (log : List Nat) : (recent now within log).length ≤ log.length :=
  List.length_filter_le ..

/-- Pruning at an earlier reading loses nothing that a later reading counts. -/
theorem recent_recent {now later : Nat} (order : now ≤ later) (within : Nat) (log : List Nat) :
    recent later within (recent now within log) = recent later within log := by
  simp only [recent,List.filter_filter]
  refine List.filter_congr (fun t _ => ?_)
  by_cases counted : later - t < within
  · have : now - t < within := by omega
    simp [counted,this]
  · simp [counted]

theorem recent_anti {now later : Nat} (order : now ≤ later) (within : Nat) (log : List Nat) :
    (recent later within log).length ≤ (recent now within log).length := by
  rw [← recent_recent order]
  exact recent_length_le ..

/-- From `last` on, the log counts what the history counts. -/
def Agrees (within last : Nat) (log history : List Nat) : Prop :=
  ∀ now, last ≤ now → recent now within log = recent now within history

theorem Agrees.mono {within last last' : Nat} {log history : List Nat} (agrees : Agrees within last log history)
    (order : last ≤ last') : Agrees within last' log history :=
  fun now later => agrees now (by omega)

/-- Recording a grant and pruning at the same reading keeps the agreement. -/
theorem Agrees.record {within last now : Nat} {log history : List Nat} (agrees : Agrees within last log history)
    (order : last ≤ now) : Agrees within now (recent now within (log ++ [now])) (history ++ [now]) := by
  intro later after
  rw [recent_recent after,recent_append,recent_append,agrees later (by omega)]

/-- A grant: the reading it was decided at and the reading it was recorded at. -/
abbrev Grant := Nat × Nat

/-- The first and the last of any `limit + 1` of the grants lie at least
    `within` apart. -/
def Spaced (within limit : Nat) (grants : List Grant) : Prop :=
  ∀ first between last, (first :: between ++ [last]).Sublist grants → between.length + 1 = limit →
    within ≤ last.1 - first.2

theorem spaced_nil (within limit : Nat) : Spaced within limit [] := by
  intro first between last picked
  simp at picked

theorem Spaced.sublist {within limit : Nat} {few grants : List Grant} (spaced : Spaced within limit grants)
    (part : few.Sublist grants) : Spaced within limit few :=
  fun first between last picked => spaced first between last (picked.trans part)

/-- One more grant keeps the spacing exactly when fewer than `limit` grants are
    in its window. -/
theorem spaced_append_iff {within limit : Nat} (positive : 0 < limit) {grants : List Grant} (grant : Grant)
    (sorted : (grants.map (·.2)).Pairwise (· ≤ ·)) :
    Spaced within limit (grants ++ [grant]) ↔
      Spaced within limit grants ∧ (recent grant.1 within (grants.map (·.2))).length < limit := by
  constructor
  · intro spaced
    refine ⟨spaced.sublist (List.sublist_append_left ..),?_⟩
    by_contra many
    -- The oldest of `limit` counted grants, those between, and the new grant violate the spacing.
    have counted : (recent grant.1 within (grants.map (·.2))).length =
        (grants.filter (fun g => grant.1 - g.2 < within)).length := by
      simp [recent,List.filter_map,Function.comp_def]
    rw [counted] at many
    have part := (List.take_sublist limit _).trans (List.filter_sublist (l := grants)
      (p := fun g => decide (grant.1 - g.2 < within)))
    have size : ((grants.filter (fun g => grant.1 - g.2 < within)).take limit).length = limit := by
      rw [List.length_take]; omega
    cases split : (grants.filter (fun g => grant.1 - g.2 < within)).take limit with
    | nil => simp [split] at size; omega
    | cons first between =>
      rw [split] at part size
      have far := spaced first between grant (part.append (List.Sublist.refl [grant])) (by simpa using size)
      have listed : first ∈ grants.filter (fun g => grant.1 - g.2 < within) :=
        List.mem_of_mem_take (i := limit) (by rw [split]; exact List.mem_cons_self)
      have near := (List.mem_filter.mp listed).2
      simp only [decide_eq_true_eq] at near
      omega
  · rintro ⟨spaced,few⟩ first between last picked size
    obtain ⟨left,right,split,leftPart,rightPart⟩ := List.sublist_append_iff.mp picked
    rcases List.sublist_singleton.mp rightPart with empty | single
    · subst empty
      rw [List.append_nil] at split
      exact spaced first between last (split ▸ leftPart) size
    · subst single
      obtain ⟨rfl,same⟩ := List.append_inj' split rfl
      cases same
      by_contra near
      -- Everything picked before the new grant is at least as young as the first.
      have order : ∀ g ∈ first :: between, first.2 ≤ g.2 := by
        have picked := sorted.sublist (leftPart.map (·.2))
        simp only [List.map_cons,List.pairwise_cons,List.mem_map] at picked
        intro g member
        rcases List.mem_cons.mp member with rfl | later
        · exact Nat.le_refl _
        · exact picked.1 g.2 ⟨g,later,rfl⟩
      have all : recent grant.1 within ((first :: between).map (·.2)) = (first :: between).map (·.2) := by
        refine List.filter_eq_self.mpr (fun t member => ?_)
        obtain ⟨g,listed,rfl⟩ := List.mem_map.mp member
        have := order g listed
        simp only [decide_eq_true_eq]
        omega
      have bound := ((leftPart.map (·.2)).filter (fun t => decide (grant.1 - t < within))).length_le
      change (recent _ _ _).length ≤ (recent _ _ _).length at bound
      rw [all] at bound
      simp at bound few
      omega

end ActorKit.Window
