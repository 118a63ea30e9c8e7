import ActorKit.MailboxCalls
import ActorKit.Lib.Counting
import Mathlib.Data.List.Perm.Subperm

/-!
# No lost wakeup

A receiver registers with the `Notify`, finds both queues empty and parks. Nothing
ties the two looks together, but whatever is pushed into a queue after the look
at it has its notification still to come, and that one wakes everybody who is
registered: a receiver that sleeps beside a message is about to be woken by the
sender of that message.
-/

namespace ActorKit.Wakeups
open ActorKit.mailbox ActorKit.MailboxAccounting ActorKit.MailboxCalls ActorKit.Transition ActorKit.Counting

/-- The threads of a mailbox, and for each of them the message it has pushed
    without having called `notify_waiters`. -/
structure Watched where
  threads : Threads
  unannounced : List (Option Message)

/-- What a step changes about the unannounced messages. -/
def Watched.note (s : Watched) (i : Nat) : List (Option Message) :=
  match s.threads.pcs[i]? with
  | some (.push message _) =>
    if (s.threads.cells.mb.push message).isSome then s.unannounced.set i (some message) else s.unannounced
  | some .notify => s.unannounced.set i none
  | _ => s.unannounced

def Watched.step (s : Watched) (label : Nat × MailboxCall) : Option Watched :=
  (s.threads.step label).map (fun threads => { threads, unannounced := s.note label.1 })

def Watched.init (actor_id : ActorId) (config : MailboxConfig) (n : Nat) : Watched :=
  { threads := .init actor_id config n, unannounced := List.replicate n none }

/-- A sender that has pushed and not yet notified. -/
def announces : Pc → Bool
  | .threshold _ | .notify => true
  | _ => false

/-- The messages whose notification is still to come. -/
def coming (s : Watched) : List Message := s.unannounced.filterMap id

/-- Every run of the threads is watched. -/
theorem watched {actor_id : ActorId} {config : MailboxConfig} {n : Nat} {t : Threads}
    (reached : Reachable Threads.step (.init actor_id config n) t) :
    ∃ s : Watched, s.threads = t ∧ Reachable Watched.step (.init actor_id config n) s := by
  induction reached with
  | start => exact ⟨.init actor_id config n,rfl,.start⟩
  | @next t t' label before _ stepped ih =>
    obtain ⟨s,rfl,reached⟩ := ih
    have noted : s.step label = some ⟨t',s.note label.1⟩ := by
      rw [Watched.step,stepped]
      rfl
    exact ⟨_,rfl,.next reached trivial noted⟩

/-- What a registered receiver knows: the queues it has found empty hold only
    messages whose notification is still to come. -/
def Knows (mb : Mailbox) (coming : List Message) : Pc → Prop
  | .pop_queue true => mb.critical_queue.Subperm coming
  | .park => (contents mb).Subperm coming
  | _ => True

/-- What holds in every run. -/
structure Alert (s : Watched) : Prop where
  /-- Without priorities nothing is stored as critical. -/
  plain : s.threads.cells.mb.config.priority_queue = false → s.threads.cells.mb.critical_queue = []
  announced : s.unannounced.map Option.isSome = s.threads.pcs.map announces
  knows : ∀ i pc, i ∈ s.threads.cells.waiters → s.threads.pcs[i]? = some pc → Knows s.threads.cells.mb (coming s) pc

/-! ## One access -/

/-- What an access does to the queues: it takes from them, or it pushes a message
    into one. -/
inductive Stored (mb mb' : Mailbox) : Option Message → Prop where
  | fewer (critical : mb'.critical_queue.Sublist mb.critical_queue) (queue : mb'.queue.Sublist mb.queue) : Stored mb mb' none
  | urgent {m : Message} (flag : mb.config.priority_queue = true)
      (critical : mb'.critical_queue = mb.critical_queue ++ [m]) (queue : mb'.queue = mb.queue) : Stored mb mb' (some m)
  | ordinary {m : Message} (critical : mb'.critical_queue = mb.critical_queue) (queue : mb'.queue = mb.queue ++ [m]) :
      Stored mb mb' (some m)

/-- The message that the next access pushes. -/
def pushes (mb : Mailbox) : Pc → Option Message
  | .push message _ => if (mb.push message).isSome then some message else none
  | _ => none

theorem same_queues {mb mb' : Mailbox} (critical : mb'.critical_queue = mb.critical_queue) (queue : mb'.queue = mb.queue) :
    Stored mb mb' none := by
  refine .fewer ?_ ?_
  · rw [critical]
  · rw [queue]

theorem sub_queues (mb : Mailbox) (n : Nat) :
    (mb.sub_size n).config = mb.config ∧ (mb.sub_size n).critical_queue = mb.critical_queue ∧
      (mb.sub_size n).queue = mb.queue := ⟨rfl,rfl,rfl⟩

theorem raise_queues (mb : Mailbox) (size : Nat) :
    (mb.raise_backpressure size).config = mb.config ∧
      (mb.raise_backpressure size).critical_queue = mb.critical_queue ∧ (mb.raise_backpressure size).queue = mb.queue := by
  unfold Mailbox.raise_backpressure
  split <;> exact ⟨rfl,rfl,rfl⟩

theorem lower_queues (mb : Mailbox) (size : Nat) :
    (mb.lower_backpressure size).config = mb.config ∧
      (mb.lower_backpressure size).critical_queue = mb.critical_queue ∧ (mb.lower_backpressure size).queue = mb.queue := by
  unfold Mailbox.lower_backpressure
  split <;> exact ⟨rfl,rfl,rfl⟩

theorem pop_critical_stored {mb mb' : Mailbox} {m : Message} (popped : mb.pop_critical = some (m,mb')) :
    mb'.config = mb.config ∧ Stored mb mb' none := by
  obtain ⟨rest,found,rfl⟩ := pop_critical_some popped
  exact ⟨rfl,.fewer (by rw [found]; exact List.sublist_cons_self ..) (List.Sublist.refl _)⟩

theorem pop_queue_stored {mb mb' : Mailbox} {m : Message} (popped : mb.pop_queue = some (m,mb')) :
    mb'.config = mb.config ∧ Stored mb mb' none := by
  obtain ⟨rest,found,rfl⟩ := pop_queue_some popped
  exact ⟨rfl,.fewer (List.Sublist.refl _) (by rw [found]; exact List.sublist_cons_self ..)⟩

theorem push_stored {mb mb' : Mailbox} {m : Message} (pushed : mb.push m = some mb') :
    mb'.config = mb.config ∧ Stored mb mb' (some m) := by
  rcases push_some pushed with ⟨flag,rfl⟩ | rfl
  · exact ⟨rfl,.urgent flag rfl rfl⟩
  · exact ⟨rfl,.ordinary rfl rfl⟩

/-- What one access of thread `i` does. -/
structure Access (i : Nat) (pc : Pc) (cells cells' : Cells) (pc' : Pc) : Prop where
  config : cells'.mb.config = cells.mb.config
  stored : Stored cells.mb cells'.mb (pushes cells.mb pc)
  notified : pc = .notify → cells'.waiters = []
  waiters : ∀ k ∈ cells'.waiters, k ∈ cells.waiters ∨ k = i
  announced : announces pc' = ((pushes cells.mb pc).isSome || (announces pc && pc != .notify))
  /-- Who goes on to the second queue has found the first one empty or does not use it. -/
  first : pc' = .pop_queue true → cells' = cells ∧ (cells.mb.config.priority_queue = true → cells.mb.critical_queue = [])
  second : pc' = .park → pc = .pop_queue true ∧ cells' = cells ∧ cells.mb.queue = []

theorem advance_access {pc pc' : Pc} {cells cells' : Cells} {i : Nat} {call : MailboxCall}
    (stepped : pc.advance cells i call = some (cells',pc')) : Access i pc cells cells' pc' := by
  have still : Stored cells.mb cells.mb none := same_queues rfl rfl
  have old : ∀ k ∈ cells.waiters, k ∈ cells.waiters ∨ k = i := fun _ member => .inl member
  cases pc with
  | idle =>
    cases stepped
    cases call <;> exact ⟨rfl,still,by rintro ⟨⟩,old,rfl,by rintro ⟨⟩,by rintro ⟨⟩⟩
  | acquire waits message =>
    simp only [Pc.advance,Mailbox.try_acquire] at stepped
    split at stepped
    · next mb found =>
      split at found <;> cases found
      cases stepped
      exact ⟨rfl,same_queues rfl rfl,by rintro ⟨⟩,old,rfl,by rintro ⟨⟩,by rintro ⟨⟩⟩
    · split at stepped <;> cases stepped
      exact ⟨rfl,still,by rintro ⟨⟩,old,rfl,by rintro ⟨⟩,by rintro ⟨⟩⟩
  | increment message =>
    cases stepped
    exact ⟨rfl,same_queues rfl rfl,by rintro ⟨⟩,old,rfl,by rintro ⟨⟩,by rintro ⟨⟩⟩
  | push message size =>
    simp only [Pc.advance] at stepped
    split at stepped
    · next mb found =>
      cases stepped
      obtain ⟨config,stored⟩ := push_stored found
      have pushed : pushes cells.mb (.push message size) = some message := by simp [pushes,found]
      exact ⟨config,by rw [pushed]; exact stored,by rintro ⟨⟩,old,by rw [pushed]; rfl,by rintro ⟨⟩,by rintro ⟨⟩⟩
    · next found =>
      cases stepped
      have pushed : pushes cells.mb (.push message size) = none := by simp [pushes,found]
      exact ⟨rfl,by rw [pushed]; exact still,by rintro ⟨⟩,old,by rw [pushed]; rfl,by rintro ⟨⟩,by rintro ⟨⟩⟩
  | undo_size =>
    cases stepped
    obtain ⟨config,critical,queue⟩ := sub_queues cells.mb 1
    exact ⟨config,same_queues critical queue,by rintro ⟨⟩,old,rfl,by rintro ⟨⟩,by rintro ⟨⟩⟩
  | undo_permit =>
    cases stepped
    exact ⟨rfl,same_queues rfl rfl,by rintro ⟨⟩,old,rfl,by rintro ⟨⟩,by rintro ⟨⟩⟩
  | threshold size =>
    cases stepped
    obtain ⟨config,critical,queue⟩ := raise_queues cells.mb size
    exact ⟨config,same_queues critical queue,by rintro ⟨⟩,old,rfl,by rintro ⟨⟩,by rintro ⟨⟩⟩
  | notify =>
    cases stepped
    exact ⟨rfl,still,fun _ => rfl,by simp,rfl,by rintro ⟨⟩,by rintro ⟨⟩⟩
  | register =>
    cases stepped
    refine ⟨rfl,still,by rintro ⟨⟩,?_,rfl,by rintro ⟨⟩,by rintro ⟨⟩⟩
    intro k member
    rcases List.mem_append.mp member with before | own
    · exact .inl before
    · exact .inr (List.mem_singleton.mp own)
  | pop_critical looping =>
    simp only [Pc.advance] at stepped
    split at stepped
    · next message mb found =>
      cases stepped
      split at found
      · obtain ⟨config,stored⟩ := pop_critical_stored found
        exact ⟨config,stored,by rintro ⟨⟩,old,rfl,by rintro ⟨⟩,by rintro ⟨⟩⟩
      · cases found
    · next found =>
      cases stepped
      refine ⟨rfl,still,by rintro ⟨⟩,old,rfl,?_,by rintro ⟨⟩⟩
      rintro ⟨⟩
      refine ⟨rfl,fun flag => ?_⟩
      rw [if_pos flag] at found
      exact pop_critical_none found
  | pop_queue looping =>
    simp only [Pc.advance] at stepped
    split at stepped
    · next message mb found =>
      cases stepped
      obtain ⟨config,stored⟩ := pop_queue_stored found
      exact ⟨config,stored,by rintro ⟨⟩,old,rfl,by rintro ⟨⟩,by rintro ⟨⟩⟩
    · next found =>
      cases stepped
      have empty := pop_queue_none found
      cases looping with
      | true => exact ⟨rfl,still,by rintro ⟨⟩,old,rfl,by rintro ⟨⟩,fun _ => ⟨rfl,rfl,empty⟩⟩
      | false => exact ⟨rfl,still,by rintro ⟨⟩,old,rfl,by rintro ⟨⟩,by rintro ⟨⟩⟩
  | decrement looping =>
    cases stepped
    obtain ⟨config,critical,queue⟩ := sub_queues cells.mb 1
    exact ⟨config,same_queues critical queue,by rintro ⟨⟩,old,rfl,by rintro ⟨⟩,by rintro ⟨⟩⟩
  | release looping | load_size looping =>
    cases stepped
    exact ⟨rfl,same_queues rfl rfl,by rintro ⟨⟩,old,rfl,by rintro ⟨⟩,by rintro ⟨⟩⟩
  | store_flag looping size =>
    cases stepped
    obtain ⟨config,critical,queue⟩ := lower_queues cells.mb size
    refine ⟨config,same_queues critical queue,by rintro ⟨⟩,?_,rfl,by rintro ⟨⟩,by rintro ⟨⟩⟩
    intro k member
    dsimp only at member
    split at member
    · exact .inl (List.mem_filter.mp member).1
    · exact .inl member
  | park =>
    simp only [Pc.advance] at stepped
    split at stepped <;> cases stepped
    exact ⟨rfl,still,by rintro ⟨⟩,old,rfl,by rintro ⟨⟩,by rintro ⟨⟩⟩
  | clear_critical total =>
    simp only [Pc.advance] at stepped
    split at stepped
    · next message mb found =>
      cases stepped
      obtain ⟨config,stored⟩ := pop_critical_stored found
      exact ⟨config,stored,by rintro ⟨⟩,old,rfl,by rintro ⟨⟩,by rintro ⟨⟩⟩
    · cases stepped
      exact ⟨rfl,still,by rintro ⟨⟩,old,rfl,by rintro ⟨⟩,by rintro ⟨⟩⟩
  | clear_queue total =>
    simp only [Pc.advance] at stepped
    split at stepped
    · next message mb found =>
      cases stepped
      obtain ⟨config,stored⟩ := pop_queue_stored found
      exact ⟨config,stored,by rintro ⟨⟩,old,rfl,by rintro ⟨⟩,by rintro ⟨⟩⟩
    · cases stepped
      split <;> exact ⟨rfl,still,by rintro ⟨⟩,old,rfl,by rintro ⟨⟩,by rintro ⟨⟩⟩
  | clear_decrement total | clear_release total | clear_store =>
    cases stepped
    exact ⟨rfl,same_queues rfl rfl,by rintro ⟨⟩,old,rfl,by rintro ⟨⟩,by rintro ⟨⟩⟩

/-- What was known stays known: a message that is pushed is also one to come. -/
theorem knows_next {mb mb' : Mailbox} {coming coming' : List Message} {pushed : Option Message} {pc : Pc}
    (stored : Stored mb mb' pushed) (grown : coming'.Perm (pushed.toList ++ coming)) (knows : Knows mb coming pc) :
    Knows mb' coming' pc := by
  have critical : mb.critical_queue.Subperm coming → mb'.critical_queue.Subperm coming' := by
    intro before
    refine List.Subperm.trans ?_ grown.symm.subperm
    cases stored with
    | fewer critical queue => exact critical.subperm.trans before
    | @urgent m flag critical queue =>
      rw [critical]
      exact (List.perm_append_singleton m _).subperm.trans ((List.subperm_cons m).mpr before)
    | ordinary critical queue =>
      rw [critical]
      exact before.trans (List.sublist_cons_self ..).subperm
  have all : (contents mb).Subperm coming → (contents mb').Subperm coming' := by
    intro before
    refine List.Subperm.trans ?_ grown.symm.subperm
    unfold contents at before ⊢
    cases stored with
    | fewer critical queue => exact (critical.append queue).subperm.trans before
    | @urgent m flag critical queue =>
      rw [critical,queue,List.append_assoc,List.singleton_append]
      exact List.perm_middle.subperm.trans ((List.subperm_cons m).mpr before)
    | @ordinary m critical queue =>
      rw [critical,queue,← List.append_assoc]
      exact (List.perm_append_singleton m _).subperm.trans ((List.subperm_cons m).mpr before)
  unfold Knows at knows ⊢
  split
  · exact critical knows
  · exact all knows
  · trivial

/-! ## Every run -/

/-- What the watcher notes: a pushed message is added, a notification withdraws
    one. -/
theorem note_step {s : Watched} (alert : Alert s) {i : Nat} {pc pc' : Pc} {cells' : Cells}
    (found : s.threads.pcs[i]? = some pc) (access : Access i pc s.threads.cells cells' pc') :
    (s.note i).map Option.isSome = (s.threads.pcs.set i pc').map announces ∧
      (pc ≠ .notify → ((s.note i).filterMap id).Perm ((pushes s.threads.cells.mb pc).toList ++ coming s)) := by
  have slot := congrArg (fun flags => flags[i]?) alert.announced
  simp only [List.getElem?_map,found,Option.map_some] at slot
  have written : ∀ x : Option Message, x.isSome = announces pc' →
      (s.unannounced.set i x).map Option.isSome = (s.threads.pcs.set i pc').map announces := by
    intro x same
    rw [List.map_set,List.map_set,alert.announced,same]
  have announced := access.announced
  cases pushed : pushes s.threads.cells.mb pc with
  | some m =>
    -- Only a push pushes, and a thread at its push has announced everything.
    have noted : s.note i = s.unannounced.set i (some m) ∧ announces pc = false := by
      cases pc with
      | push message size =>
        simp only [pushes] at pushed
        split at pushed
        · next stores =>
          cases pushed
          simp only [Watched.note,found,stores,if_true]
          exact ⟨trivial,rfl⟩
        · cases pushed
      | _ => cases pushed
    rw [pushed] at announced
    rw [noted.1]
    refine ⟨written _ (by rw [announced]; rfl),fun _ => ?_⟩
    obtain ⟨present,here,none⟩ := Option.map_eq_some_iff.mp slot
    rw [noted.2,Option.isSome_eq_false_iff,Option.isNone_iff_eq_none] at none
    subst none
    exact present_set here m
  | none =>
    rw [pushed] at announced
    by_cases notifies : pc = .notify
    · subst notifies
      have noted : s.note i = s.unannounced.set i none := by simp only [Watched.note,found]
      rw [noted]
      exact ⟨written _ (by rw [announced]; rfl),fun other => absurd rfl other⟩
    · have noted : s.note i = s.unannounced := by
        unfold Watched.note
        rw [found]
        split
        · next message size equal =>
          cases equal
          have stores : (s.threads.cells.mb.push message).isSome ≠ true := by
            intro stores
            simp [pushes,stores] at pushed
          rw [if_neg stores]
        · next equal =>
          cases equal
          exact absurd rfl notifies
        · rfl
      rw [noted]
      refine ⟨?_,fun _ => .refl _⟩
      have same : announces pc' = announces pc := by
        rw [announced]
        simp [notifies]
      rw [alert.announced,List.map_set,same]
      exact (set_same (by rw [List.getElem?_map,found]; rfl)).symm

theorem alert_step {s s' : Watched} {label : Nat × MailboxCall} (alert : Alert s) (stepped : s.step label = some s') :
    Alert s' := by
  obtain ⟨t,moved,rfl⟩ := Option.map_eq_some_iff.mp stepped
  obtain ⟨pc,found,rest⟩ := Option.bind_eq_some_iff.mp moved
  obtain ⟨⟨cells',pc'⟩,advanced,same⟩ := Option.bind_eq_some_iff.mp rest
  cases same
  obtain ⟨i,call⟩ := label
  have access := advance_access advanced
  obtain ⟨announced,grown⟩ := note_step alert found access
  refine ⟨?_,announced,?_⟩
  · intro flag
    have off : s.threads.cells.mb.config.priority_queue = false := by
      rw [← access.config]
      exact flag
    have before := alert.plain off
    show cells'.mb.critical_queue = []
    cases hole : pushes s.threads.cells.mb pc with
    | none =>
      have stored := access.stored
      rw [hole] at stored
      cases stored with
      | fewer critical queue =>
        rw [before] at critical
        exact List.sublist_nil.mp critical
    | some m =>
      have stored := access.stored
      rw [hole] at stored
      cases stored with
      | urgent on critical queue =>
        rw [off] at on
        cases on
      | ordinary critical queue => rw [critical,before]
  · intro k own listed here
    by_cases notifies : pc = .notify
    · rw [access.notified notifies] at listed
      cases listed
    · by_cases mine : k = i
      · subst mine
        have latest : (s.threads.pcs.set k pc')[k]? = some pc' :=
          List.getElem?_set_self (List.getElem?_eq_some_iff.mp found).1
        rw [latest] at here
        cases here
        unfold Knows
        split
        · next sought =>
          obtain ⟨same,empty⟩ := access.first rfl
          have nothing : s.threads.cells.mb.critical_queue = [] := by
            cases flag : s.threads.cells.mb.config.priority_queue with
            | true => exact empty flag
            | false => exact alert.plain flag
          show cells'.mb.critical_queue.Subperm _
          rw [same,nothing]
          exact List.nil_subperm
        · obtain ⟨rfl,same,empty⟩ := access.second rfl
          have old : k ∈ s.threads.cells.waiters := by
            rw [← same]
            exact listed
          have knows : s.threads.cells.mb.critical_queue.Subperm (coming s) := alert.knows k _ old found
          show (contents cells'.mb).Subperm _
          rw [same,contents,empty,List.append_nil]
          exact knows.trans (grown notifies).symm.subperm
        · trivial
      · have earlier : s.threads.pcs[k]? = some own := by
          rw [← here]
          exact (List.getElem?_set_ne (Ne.symm mine)).symm
        rcases access.waiters k listed with old | same
        · exact knows_next access.stored (grown notifies) (alert.knows k own old earlier)
        · exact absurd same mine

theorem alert_init (actor_id : ActorId) (config : MailboxConfig) (n : Nat) : Alert (.init actor_id config n) := by
  refine ⟨fun _ => rfl,?_,?_⟩
  · show (List.replicate n none).map Option.isSome = (List.replicate n Pc.idle).map announces
    rw [List.map_replicate,List.map_replicate]
    rfl
  · intro i pc listed
    cases listed

theorem alert_reach {actor_id : ActorId} {config : MailboxConfig} {n : Nat} {s : Watched}
    (reached : Reachable Watched.step (.init actor_id config n) s) : Alert s :=
  reached.invariant (alert_init actor_id config n) (fun _ _ _ alert _ stepped => alert_step alert stepped)

/-- Beside a receiver that is parked and not notified, every queued message is one
    whose sender has pushed it and not yet called `notify_waiters`. -/
theorem no_lost_wakeup {actor_id : ActorId} {config : MailboxConfig} {n : Nat} {s : Watched}
    (reached : Reachable Watched.step (.init actor_id config n) s) {i : Nat} (parked : s.threads.pcs[i]? = some .park)
    (unnotified : i ∈ s.threads.cells.waiters) :
    (contents s.threads.cells.mb).Subperm (coming s) ∧
      (∀ (j : Nat) (m : Message), s.unannounced[j]? = some (some m) →
        ∃ pc, s.threads.pcs[j]? = some pc ∧ announces pc = true) ∧
      (contents s.threads.cells.mb ≠ [] → ∃ pc ∈ s.threads.pcs, announces pc = true) := by
  have alert := alert_reach reached
  have known : (contents s.threads.cells.mb).Subperm (coming s) := alert.knows i .park unnotified parked
  have pending : ∀ (j : Nat) (m : Message), s.unannounced[j]? = some (some m) →
      ∃ pc, s.threads.pcs[j]? = some pc ∧ announces pc = true := by
    intro j m found
    have flags := congrArg (fun flags => flags[j]?) alert.announced
    simp only [List.getElem?_map,found,Option.map_some,Option.isSome_some] at flags
    exact Option.map_eq_some_iff.mp flags.symm
  refine ⟨known,pending,?_⟩
  intro stored
  obtain ⟨m,member⟩ := List.exists_mem_of_ne_nil _ stored
  obtain ⟨slot,listed,present⟩ := List.mem_filterMap.mp (known.subset member)
  cases present
  obtain ⟨j,found⟩ := List.getElem?_of_mem listed
  obtain ⟨pc,here,announcing⟩ := pending j m found
  exact ⟨pc,List.mem_of_getElem? here,announcing⟩

/-- A receiver parks, and a sender is interrupted between its push and its
    notification. -/
def asleep : List (Nat × MailboxCall) :=
  let message : Message := { sender := none, payload := .Empty, priority := .Normal }
  [(0,.recv),(0,.clear),(0,.clear),(0,.clear),(1,.send message),(1,.clear),(1,.clear),(1,.clear)]

theorem no_lost_wakeup_asleep : ∃ s, Reachable Watched.step (.init ⟨0⟩ {} 2) s ∧
    s.threads.pcs[0]? = some .park ∧ 0 ∈ s.threads.cells.waiters ∧
    (contents s.threads.cells.mb).map (·.payload) = [.Empty] ∧ ∃ pc ∈ s.threads.pcs, announces pc = true := by
  have seen : (run Watched.step (.init ⟨0⟩ {} 2) asleep).map (fun s => (s.threads.pcs[0]?,s.threads.cells.waiters,
      (contents s.threads.cells.mb).map (·.payload))) = some (some .park,[0],[.Empty]) := by decide +kernel
  obtain ⟨s,runs,same⟩ := Option.map_eq_some_iff.mp seen
  simp only [Prod.mk.injEq] at same
  obtain ⟨parked,waiters,payloads⟩ := same
  have reached : Reachable Watched.step (.init ⟨0⟩ {} 2) s := reachable_run .start runs
  have unnotified : 0 ∈ s.threads.cells.waiters := by rw [waiters]; exact List.mem_singleton_self 0
  refine ⟨s,reached,parked,unnotified,payloads,(no_lost_wakeup reached parked unnotified).2.2 ?_⟩
  intro empty
  rw [empty] at payloads
  cases payloads

end ActorKit.Wakeups
