import ActorKit.Turns

/-!
# Tasks of a suspended actor

The task of an ordinary message finds the actor suspended and sends the message
to its mailbox again, where the message already is. The mailbox stays as it was
only if there is no such task, or no room for the copy.
-/

namespace ActorKit.Suspension
open ActorKit.mailbox ActorKit.registry ActorKit.queue ActorKit.scheduler ActorKit.dispatch
open ActorKit.MailboxAccounting ActorKit.MailboxCalls ActorKit.Batches ActorKit.Turns
variable {σ : Type}

/-- The same messages in the same order, and the same counts. -/
structure Kept (mb mb' : Mailbox) : Prop where
  critical : mb'.critical_queue = mb.critical_queue
  queue : mb'.queue = mb.queue
  len : mb'.len = mb.len
  permits : mb'.permits = mb.permits

/-- What the copies leave of a mailbox. -/
def resent (messages : List Message) (mb : Mailbox) : Mailbox := messages.foldl (fun mb m => (mb.try_send m).1) mb

theorem resent_full {mb : Mailbox} (full : mb.permits = 0) (messages : List Message) : resent messages mb = mb := by
  induction messages with
  | nil => rfl
  | cons m messages ih =>
    have refused : (mb.try_send m).1 = mb := by simp [Mailbox.try_send,Mailbox.try_acquire,full]
    show resent messages (mb.try_send m).1 = mb
    rw [refused]
    exact ih

section
variable {config : MailboxConfig} (fits : config.capacity < 2 ^ 64) {mb : Mailbox} (resting : Resting config mb)
include fits resting

/-- Copies never make a mailbox smaller. -/
theorem resent_grows (messages : List Message) : queued mb ≤ queued (resent messages mb) := by
  induction messages generalizing mb with
  | nil => exact Nat.le_refl _
  | cons m messages ih =>
    show _ ≤ queued (resent messages (mb.try_send m).1)
    rcases try_send_cases fits resting m with ⟨-,same⟩ | ⟨-,kept,critical,queue⟩
    · rw [same]
      exact ih resting
    · have more : queued mb ≤ queued (mb.try_send m).1 := by
        rw [queued,queued,critical,queue,List.length_append,List.length_append]
        omega
      exact more.trans (ih kept)

theorem resent_room (room : mb.permits ≠ 0) (m : Message) (messages : List Message) :
    queued mb < queued (resent (m :: messages) mb) := by
  show _ < queued (resent messages (mb.try_send m).1)
  rcases try_send_cases fits resting m with ⟨full,-⟩ | ⟨-,kept,critical,queue⟩
  · exact absurd full room
  · have more : queued (mb.try_send m).1 = queued mb + 1 := by
      rw [queued,queued,critical,queue]
      cases urgent config m <;> simp <;> omega
    have := resent_grows fits kept messages
    omega

theorem kept_iff (messages : List Message) : Kept mb (resent messages mb) ↔ messages = [] ∨ mb.permits = 0 := by
  constructor
  · intro kept
    by_contra neither
    obtain ⟨some_,room⟩ := not_or.mp neither
    cases messages with
    | nil => exact some_ rfl
    | cons m messages =>
      have more := resent_room fits resting room m messages
      have same : queued (resent (m :: messages) mb) = queued mb := by rw [queued,queued,kept.critical,kept.queue]
      omega
  · rintro (rfl | full)
    · exact ⟨rfl,rfl,rfl,rfl⟩
    · rw [resent_full full]
      exact ⟨rfl,rfl,rfl,rfl⟩

end

/-- Ordinary messages leave the actor suspended and are sent to its mailbox. -/
theorem serve_suspended (executor : Option (Executor σ)) (id : ActorId) {x : Scene σ} (suspended : x.actor.state = .Suspended)
    (messages : List Message) (ordinary : ∀ m ∈ messages, is_control m.payload = false) :
    ∃ x', (∀ n, serve executor id n x messages = some x') ∧
      x'.actor = { x.actor with mailbox := resent messages x.actor.mailbox } := by
  induction messages generalizing x with
  | nil => exact ⟨x,fun _ => rfl,rfl⟩
  | cons m messages ih =>
    have plain := ordinary m List.mem_cons_self
    have sent : dispatch executor id x m = ((x.saw m).onMailbox (fun mb => (mb.try_send m).1),.done) := by
      simp [dispatch,suspended,plain]
    obtain ⟨x',serves,same⟩ := ih (x := (x.saw m).onMailbox (fun mb => (mb.try_send m).1)) suspended
      (fun m' member => ordinary m' (List.mem_cons_of_mem _ member))
    refine ⟨x',fun n => ?_,same⟩
    rw [serve,process,sent]
    exact serves n

/-- For every suspended actor, whatever its mailbox holds, and all tasks with
    ordinary messages: processing the tasks leaves the mailbox as it was exactly
    when there are none, or the mailbox is full. -/
theorem suspension_keeps_mailbox_iff (executor : Option (Executor σ)) (run : Run σ) (id : ActorId) {config : MailboxConfig}
    (proper : Proper config run.registry id) {a : Actor} (found : actorOf run.registry id = some a)
    (suspended : a.state = .Suspended) (tasks : List Task) (same : ∀ task ∈ tasks, task.actor_id = id)
    (ordinary : ∀ task ∈ tasks, ∀ m ∈ task.messages, is_control m.payload = false) :
    ∃ fuel run' a', process_tasks executor fuel run tasks = some run' ∧ actorOf run'.registry id = some a' ∧
      a'.state = .Suspended ∧ (Kept a.mailbox a'.mailbox ↔ tasks = [] ∨ a.mailbox.permits = 0) := by
  obtain ⟨known,-⟩ := known_of found
  have resting := proper.resting a found
  obtain ⟨x',serves,after⟩ := serve_suspended executor id (x := sceneOf run a) suspended (tasks.flatMap Task.messages)
    (by
      intro m member
      obtain ⟨task,listed,inside⟩ := List.mem_flatMap.mp member
      exact ordinary task listed m inside)
  obtain ⟨fuel,ended⟩ := (serve_iff known).mpr ⟨0,x',serves 0,rfl⟩
  rw [inside_sceneOf found,← flat_singles same,← tasks_singles] at ended
  refine ⟨fuel,_,x'.actor,ended,actorOf_put known _,?_,?_⟩
  · rw [after]
    exact suspended
  · rw [after]
    show Kept a.mailbox (resent _ a.mailbox) ↔ _
    rw [kept_iff proper.fits resting]
    have none : tasks.flatMap Task.messages = [] ↔ tasks = [] := by
      cases tasks with
      | nil => simp
      | cons task tasks => simp [Task.messages]
    rw [none]

/-- One message waits in a full mailbox, and its task is processed. -/
theorem suspension_keeps_mailbox_iff_full :
    let message : Message := ⟨none,.Custom [1],.Normal,0⟩
    let a : Actor := ⟨.Suspended,0,filled { capacity := 1 } ⟨1⟩ [message]⟩
    let run : Run Unit := { registry := lone ⟨1⟩ a, executor := () }
    ∃ fuel run' a', process_tasks none fuel run [single ⟨1⟩ message] = some run' ∧
      actorOf run'.registry ⟨1⟩ = some a' ∧ Kept a.mailbox a'.mailbox := by
  intro message a run
  have fits : ({ capacity := 1 } : MailboxConfig).capacity < 2 ^ 64 := by decide
  obtain ⟨fuel,run',a',ended,found,-,kept⟩ := suspension_keeps_mailbox_iff none run ⟨1⟩
    (proper_lone fits ⟨1⟩ (resting_filled fits ⟨1⟩ _) (by decide)) (actorOf_lone ⟨1⟩ a) rfl [single ⟨1⟩ message]
    (by simp [single]) (by simp [single,Task.messages,message,is_control])
  have full : a.mailbox.permits = 0 := by decide +kernel
  exact ⟨fuel,run',a',ended,found,kept.mpr (.inr full)⟩

/-- With room for more, the message that waits is there twice afterwards. -/
theorem suspension_doubles :
    let message : Message := ⟨none,.Custom [1],.Normal,0⟩
    let a : Actor := ⟨.Suspended,0,filled { capacity := 8 } ⟨1⟩ [message]⟩
    let run : Run Unit := { registry := lone ⟨1⟩ a, executor := () }
    ∃ run' a', process_tasks none 1 run [single ⟨1⟩ message] = some run' ∧ actorOf run'.registry ⟨1⟩ = some a' ∧
      a.mailbox.queue = [message] ∧ a'.mailbox.queue = [message,message] ∧ ¬Kept a.mailbox a'.mailbox := by
  intro message a run
  have before : a.mailbox.queue = [message] := by decide +kernel
  have after : ((process_tasks none 1 run [single ⟨1⟩ message]).bind (fun run' =>
      (actorOf run'.registry ⟨1⟩).map (fun a' => a'.mailbox.queue))) = some [message,message] := by decide +kernel
  obtain ⟨run',ended,rest⟩ := Option.bind_eq_some_iff.mp after
  obtain ⟨a',found,queue⟩ := Option.map_eq_some_iff.mp rest
  refine ⟨run',a',ended,found,before,queue,fun kept => ?_⟩
  have same := kept.queue
  rw [before,queue] at same
  cases same

end ActorKit.Suspension
