import Mathlib.Data.List.Basic
import Mathlib.Data.List.Count
import Mathlib.Tactic.Common

/-!
# Receipts for numbered items

Items are numbered as they are issued. Copies of them are pending, an item may be
received several times and may be given up. Every issued item is pending,
received or given up; as long as nothing is copied (`once`), an item is never
both received and pending, nor received twice.
-/

namespace ActorKit.Receipts

/-- How often an item was received. -/
def timesOf (times : List Nat) (item : Nat) : Nat := times[item]?.getD 0

/-- Whether an item was given up. -/
def lostOf (lost : List Bool) (item : Nat) : Bool := lost[item]?.getD false

structure Accounted (once : Prop) (next : Nat) (pending times : List Nat) (lost : List Bool) : Prop where
  sizes : lost.length = times.length
  room : next ≤ times.length
  issued : ∀ item ∈ pending, item < next
  unissued : ∀ item, next ≤ item → timesOf times item = 0
  covered : ∀ item, item < next → item ∈ pending ∨ 1 ≤ timesOf times item ∨ lostOf lost item = true
  single : once → ∀ item, timesOf times item + pending.count item ≤ 1

namespace Accounted
variable {once : Prop} {next item : Nat} {pending pending' times : List Nat} {lost : List Bool}

theorem perm (ledger : Accounted once next pending times lost) (same : pending.Perm pending') :
    Accounted once next pending' times lost where
  sizes := ledger.sizes
  room := ledger.room
  issued := fun item member => ledger.issued item (same.mem_iff.mpr member)
  unissued := ledger.unissued
  covered := fun item old => (ledger.covered item old).imp_left same.mem_iff.mp
  single := fun once item => by rw [← same.count_eq]; exact ledger.single once item

/-- The next items are issued. -/
theorem issue (ledger : Accounted once next pending times lost) (len : Nat) (fits : next + len ≤ times.length) :
    Accounted once (next + len) (List.range' next len ++ pending) times lost where
  sizes := ledger.sizes
  room := fits
  issued := by
    intro item member
    rcases List.mem_append.mp member with new | old
    · exact (List.mem_range'_1.mp new).2
    · have := ledger.issued item old
      omega
  unissued := fun item later => ledger.unissued item (by omega)
  covered := by
    intro item small
    by_cases old : item < next
    · rcases ledger.covered item old with waiting | settled
      · exact .inl (List.mem_append_right _ waiting)
      · exact .inr settled
    · exact .inl (List.mem_append_left _ (List.mem_range'_1.mpr ⟨by omega,small⟩))
  single := by
    intro only item
    have before := ledger.single only item
    rw [List.count_append]
    by_cases new : item ∈ List.range' next len
    · have unknown : item ∉ pending := by
        intro member
        have := ledger.issued item member
        have := (List.mem_range'_1.mp new).1
        omega
      have count : (List.range' next len).count item ≤ 1 :=
        List.nodup_iff_count.mp List.nodup_range' item
      rw [List.count_eq_zero_of_not_mem unknown,ledger.unissued item (List.mem_range'_1.mp new).1]
      omega
    · rw [List.count_eq_zero_of_not_mem new]
      omega

/-- Copies of issued items. -/
theorem copy (ledger : Accounted once next pending times lost) (copies : ¬ once) (more : List Nat)
    (issued : ∀ item ∈ more, item < next) : Accounted once next (more ++ pending) times lost where
  sizes := ledger.sizes
  room := ledger.room
  issued := fun item member => (List.mem_append.mp member).elim (issued item) (ledger.issued item)
  unissued := ledger.unissued
  covered := fun item old => (ledger.covered item old).imp_left (List.mem_append_right _)
  single := fun only => (copies only).elim

/-- A pending copy goes away: its item is accounted for without it. -/
theorem settle (ledger : Accounted once next (item :: pending) times lost) {times' : List Nat} {lost' : List Bool}
    (sizes : lost'.length = times'.length) (room : times'.length = times.length)
    (others : ∀ other, other ≠ item → timesOf times' other = timesOf times other ∧
      (lostOf lost other = true → lostOf lost' other = true))
    (grows : timesOf times' item ≤ timesOf times item + 1)
    (accounted : 1 ≤ timesOf times' item ∨ lostOf lost' item = true) : Accounted once next pending times' lost' where
  sizes := sizes
  room := by rw [room]; exact ledger.room
  issued := fun other member => ledger.issued other (List.mem_cons_of_mem _ member)
  unissued := by
    intro other later
    have old := ledger.issued item List.mem_cons_self
    rw [(others other (by omega)).1]
    exact ledger.unissued other later
  covered := by
    intro other small
    by_cases same : other = item
    · subst same
      exact .inr accounted
    · rcases ledger.covered other small with waiting | received | given
      · exact .inl ((List.mem_cons.mp waiting).resolve_left same)
      · exact .inr (.inl (by rw [(others other same).1]; exact received))
      · exact .inr (.inr ((others other same).2 given))
  single := by
    intro only other
    have before := ledger.single only other
    by_cases same : other = item
    · subst same
      rw [List.count_cons_self] at before
      omega
    · rw [List.count_cons_of_ne (Ne.symm same)] at before
      rw [(others other same).1]
      exact before

theorem in_range (ledger : Accounted once next (item :: pending) times lost) : item < times.length :=
  Nat.lt_of_lt_of_le (ledger.issued item List.mem_cons_self) ledger.room

/-- A copy is received. -/
theorem receive (ledger : Accounted once next (item :: pending) times lost) {count : Nat} (counts : 1 ≤ count)
    (grows : count ≤ timesOf times item + 1) : Accounted once next pending (times.set item count) lost := by
  have inside := ledger.in_range
  have here : timesOf (times.set item count) item = count := by simp [timesOf,inside]
  refine ledger.settle (by simpa using ledger.sizes) (List.length_set ..) ?_ (by omega) (.inl (by omega))
  intro other apart
  exact ⟨by simp [timesOf,List.getElem?_set_ne (Ne.symm apart)],id⟩

/-- A copy is given up. -/
theorem lose (ledger : Accounted once next (item :: pending) times lost) :
    Accounted once next pending times (lost.set item true) := by
  have inside : item < lost.length := by rw [ledger.sizes]; exact ledger.in_range
  refine ledger.settle (by simpa using ledger.sizes) rfl ?_ (Nat.le_succ _) (.inr (by simp [lostOf,inside]))
  intro other apart
  exact ⟨rfl,fun given => by simpa [lostOf,List.getElem?_set_ne (Ne.symm apart)] using given⟩

/-- A copy of an item that was received goes away. -/
theorem forget (ledger : Accounted once next (item :: pending) times lost) (received : 1 ≤ timesOf times item) :
    Accounted once next pending times lost :=
  ledger.settle ledger.sizes rfl (fun _ _ => ⟨rfl,id⟩) (Nat.le_succ _) (.inl received)

end Accounted
end ActorKit.Receipts
