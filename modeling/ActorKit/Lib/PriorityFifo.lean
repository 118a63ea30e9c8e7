import Mathlib.Data.List.Basic
import Mathlib.Data.List.Nodup
import Mathlib.Data.List.Range
import Mathlib.Tactic.Common

/-!
# Bounded priority queues

A queue of bounded size that hands out the oldest urgent item, or the oldest item
when none is urgent. Items get a ticket when they are accepted, so that two equal
items are still told apart; the queue remembers every ticket it accepted, handed
out and threw away.
-/

namespace ActorKit.PriorityFifo
variable {α : Type}

inductive Operation (α : Type) where
  | send (item : α)
  | receive
  | clear

inductive Answer (α : Type) where
  | accepted
  | refused (item : α)
  | received (item : Option α)
  | cleared
deriving DecidableEq

/-- A queue with its history. The stored items are listed oldest first. -/
structure Queue (α : Type) where
  stored : List (Nat × α) := []
  accepted : List (Nat × α) := []
  received : List (Nat × α) := []
  discarded : List (Nat × α) := []

/-- The item to hand out next. -/
def next (urgent : α → Bool) (stored : List (Nat × α)) : Option (Nat × α) :=
  match stored.find? (fun entry => urgent entry.2) with
  | some entry => some entry
  | none => stored.head?

/-- The stored items without the one of a ticket. -/
def without (ticket : Nat) (stored : List (Nat × α)) : List (Nat × α) := stored.filter (fun entry => entry.1 != ticket)

def Queue.step (capacity : Nat) (urgent : α → Bool) (q : Queue α) : Operation α → Queue α × Answer α
  | .send item =>
    if q.stored.length = capacity then (q,.refused item)
    else
      let entry := (q.accepted.length,item)
      ({ q with stored := q.stored ++ [entry], accepted := q.accepted ++ [entry] },.accepted)
  | .receive => match next urgent q.stored with
    | some entry =>
      ({ q with stored := without entry.1 q.stored, received := q.received ++ [entry] },.received (some entry.2))
    | none => (q,.received none)
  | .clear => ({ q with stored := [], discarded := q.discarded ++ q.stored },.cleared)

/-! ## Taking an item out -/

section
variable {stored : List (Nat × α)} (lane : α → Bool) (distinct : (stored.map (·.1)).Nodup)

theorem next_mem {urgent : α → Bool} {entry : Nat × α} (found : next urgent stored = some entry) : entry ∈ stored := by
  unfold next at found
  split at found
  · next first urgentFirst =>
    cases found
    exact List.mem_of_find?_eq_some urgentFirst
  · exact List.mem_of_mem_head? found

theorem next_none_iff (urgent : α → Bool) : next urgent stored = none ↔ stored = [] := by
  constructor
  · intro none
    unfold next at none
    split at none
    · cases none
    · exact List.head?_eq_none_iff.mp none
  · rintro rfl
    rfl

include distinct

theorem same_entry {first second : Nat × α} (here : first ∈ stored) (there : second ∈ stored)
    (ticket : first.1 = second.1) : first = second :=
  List.inj_on_of_nodup_map distinct here there ticket

theorem without_perm {entry : Nat × α} (member : entry ∈ stored) :
    stored.Perm (entry :: without entry.1 stored) := by
  induction stored with
  | nil => cases member
  | cons first rest ih =>
    obtain ⟨fresh,others⟩ := List.nodup_cons.mp distinct
    have apart : ∀ other ∈ rest, other.1 ≠ first.1 :=
      fun other later same => fresh (List.mem_map.mpr ⟨other,later,same⟩)
    rcases List.mem_cons.mp member with rfl | later
    · have kept : without entry.1 rest = rest := List.filter_eq_self.mpr (fun other later => by simpa using apart other later)
      simp only [without,List.filter_cons,bne_self_eq_false,Bool.false_eq_true,if_false] at kept ⊢
      rw [kept]
    · have stays : (first.1 != entry.1) = true := by simpa using (apart entry later).symm
      simp only [without,List.filter_cons,stays,if_true]
      exact ((ih others later).cons first).trans (.swap ..)

/-- Taking the first item of a lane leaves the rest of that lane. -/
theorem filter_without {entry : Nat × α} {rest : List (Nat × α)}
    (first : stored.filter (fun e => lane e.2) = entry :: rest) :
    (without entry.1 stored).filter (fun e => lane e.2) = rest := by
  have part : ((entry :: rest).map (·.1)).Nodup := first ▸ distinct.sublist (List.filter_sublist.map _)
  obtain ⟨fresh,-⟩ := List.nodup_cons.mp part
  rw [without,List.filter_comm,first,List.filter_cons]
  simp only [bne_self_eq_false,Bool.false_eq_true,if_false]
  refine List.filter_eq_self.mpr (fun other later => ?_)
  have apart : other.1 ≠ entry.1 := fun same => fresh (List.mem_map.mpr ⟨other,later,same⟩)
  simpa using apart

/-- Taking an item of another lane leaves a lane as it was. -/
theorem filter_without_other {entry : Nat × α} (member : entry ∈ stored) (other : lane entry.2 = false) :
    (without entry.1 stored).filter (fun e => lane e.2) = stored.filter (fun e => lane e.2) := by
  rw [without,List.filter_comm]
  refine List.filter_eq_self.mpr (fun e inside => ?_)
  obtain ⟨stays,ours⟩ := List.mem_filter.mp inside
  have apart : e.1 ≠ entry.1 := by
    intro same
    rw [same_entry distinct stays member same,other] at ours
    cases ours
  simpa using apart

end

/-- The oldest item of the urgent lane comes first. -/
theorem next_urgent {urgent : α → Bool} {stored rest : List (Nat × α)} {entry : Nat × α}
    (first : stored.filter (fun e => urgent e.2) = entry :: rest) : next urgent stored = some entry := by
  have found : stored.find? (fun e => urgent e.2) = some entry := by
    rw [← List.head?_filter,first]
    rfl
  unfold next
  rw [found]

/-- With an empty urgent lane the oldest item of the other lane comes first. -/
theorem next_plain {urgent : α → Bool} {stored : List (Nat × α)} (none : stored.filter (fun e => urgent e.2) = []) :
    next urgent stored = (stored.filter (fun e => !urgent e.2)).head? := by
  have plain : ∀ e ∈ stored, urgent e.2 = false := by
    intro e member
    have := List.filter_eq_nil_iff.mp none e member
    simpa using this
  have missing : stored.find? (fun e => urgent e.2) = Option.none := by
    rw [← List.head?_filter,none]
    rfl
  have all : stored.filter (fun e => !urgent e.2) = stored :=
    List.filter_eq_self.mpr (fun e member => by simp [plain e member])
  unfold next
  rw [missing,all]

/-! ## The history of a run -/

/-- Every ticket is issued once, and every accepted item is handed out, thrown
    away or still stored. -/
structure Queue.Conserves (q : Queue α) : Prop where
  numbered : q.accepted.map (·.1) = List.range q.accepted.length
  ordered : (q.stored.map (·.1)).Pairwise (· < ·)
  settled : (q.received ++ q.discarded ++ q.stored).Perm q.accepted

namespace Queue.Conserves

theorem empty : Conserves ({} : Queue α) := ⟨rfl,.nil,.nil⟩

variable {q : Queue α} (conserves : q.Conserves)
include conserves

theorem distinct : (q.stored.map (·.1)).Nodup := conserves.ordered.imp (fun less => Nat.ne_of_lt less)

/-- No ticket is settled twice. -/
theorem settled_once : ((q.received ++ q.discarded ++ q.stored).map (·.1)).Nodup := by
  rw [(conserves.settled.map _).nodup_iff,conserves.numbered]
  exact List.nodup_range

theorem stored_issued {entry : Nat × α} (member : entry ∈ q.stored) : entry.1 < q.accepted.length := by
  have accepted : entry ∈ q.accepted := conserves.settled.mem_iff.mp (List.mem_append_right _ member)
  have numbered : entry.1 ∈ List.range q.accepted.length := conserves.numbered ▸ List.mem_map_of_mem accepted
  exact List.mem_range.mp numbered

theorem step (capacity : Nat) (urgent : α → Bool) (op : Operation α) : (q.step capacity urgent op).1.Conserves := by
  cases op with
  | send item =>
    simp only [Queue.step]
    split
    · exact conserves
    · constructor
      · rw [List.map_append,conserves.numbered,List.length_append]
        exact List.range_succ.symm
      · rw [List.map_append]
        refine List.pairwise_append.mpr ⟨conserves.ordered,List.pairwise_singleton ..,?_⟩
        intro ticket old new isNew
        obtain ⟨entry,member,rfl⟩ := List.mem_map.mp old
        obtain rfl : new = q.accepted.length := by simpa using isNew
        exact conserves.stored_issued member
      · show (_ ++ (q.stored ++ [_])).Perm (q.accepted ++ [_])
        rw [← List.append_assoc]
        exact conserves.settled.append_right _
  | receive =>
    simp only [Queue.step]
    split
    · next entry found =>
      constructor
      · exact conserves.numbered
      · exact conserves.ordered.sublist (List.filter_sublist.map _)
      · have taken := without_perm conserves.distinct (next_mem found)
        refine List.Perm.trans ?_ ((taken.symm.append_left (q.received ++ q.discarded)).trans conserves.settled)
        simp only [List.append_assoc,List.singleton_append]
        exact List.perm_middle.symm.append_left q.received
    · exact conserves
  | clear =>
    constructor
    · exact conserves.numbered
    · exact .nil
    · show (q.received ++ (q.discarded ++ q.stored) ++ []).Perm q.accepted
      rw [List.append_nil,← List.append_assoc]
      exact conserves.settled

end Queue.Conserves
end ActorKit.PriorityFifo
