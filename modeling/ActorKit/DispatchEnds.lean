import Mathlib.Data.List.TakeWhile
import ActorKit.Turns
import ActorKit.Lib.Transition

/-!
# When the dispatch of a message ends

A drain takes messages out of the mailbox while it lasts, except in one state: a
suspended actor gets every ordinary message back at the end of the queue it was
taken from. Unless a control message waits in that queue, the drain goes round in
it for ever. That is the only way not to end.
-/

namespace ActorKit.DispatchEnds
open ActorKit.mailbox ActorKit.registry ActorKit.queue ActorKit.scheduler ActorKit.dispatch
open ActorKit.MailboxAccounting ActorKit.MailboxCalls ActorKit.Turns
variable {σ : Type}

/-- The queue that messages are taken from. -/
def front (mb : Mailbox) : List Message := if mb.critical_queue = [] then mb.queue else mb.critical_queue

/-- Suspended, with nothing but ordinary messages in the queue to take from. -/
def Stuck (x : Scene σ) : Prop :=
  x.actor.state = .Suspended ∧ front x.actor.mailbox ≠ [] ∧ ∀ m ∈ front x.actor.mailbox, is_control m.payload = false

/-- One turn of a drain; `none` when it ends. -/
def turn (executor : Option (Executor σ)) (id : ActorId) (x : Scene σ) : Option (Scene σ) :=
  match x.pop with
  | none => none
  | some (queued,y) => match dispatch executor id y queued with
    | (_,.panic) => none
    | (z,.done) => some z
    | (z,.drain) => some z

/-- A drain comes to this state. -/
def Comes (executor : Option (Executor σ)) (id : ActorId) (x z : Scene σ) : Prop :=
  Transition.Reachable (fun y (_ : Unit) => turn executor id y) x z

/-- No turn of the drain that the message starts, if it does, begins stuck. -/
def NeverStuck (executor : Option (Executor σ)) (id : ActorId) (x : Scene σ) (message : Message) : Prop :=
  (dispatch executor id x message).2 = .drain →
    ∀ z, Comes executor id (dispatch executor id x message).1 z → ¬Stuck z

/-! ## Taking from the front -/

section
variable {config : MailboxConfig} (fits : config.capacity < 2 ^ 64) {mb : Mailbox} (resting : Resting config mb)
include resting

theorem is_empty_iff : mb.is_empty = true ↔ front mb = [] := by
  have size := resting.size
  have counts : mb.is_empty = true ↔ queued mb = 0 := by
    rw [Mailbox.is_empty,Mailbox.len,size]
    simp
  rw [counts]
  unfold front queued
  cases mb.critical_queue <;> cases mb.queue <;> simp

include fits

/-- A receive takes the first message of the front queue. -/
theorem try_recv_front {message : Message} {rest : List Message} (first : front mb = message :: rest) :
    mb.try_recv.2 = some message ∧ queued mb.try_recv.1 + 1 = queued mb := by
  unfold front at first
  cases critical : mb.critical_queue with
  | nil =>
    rw [critical] at first
    obtain ⟨mb',taken,-,left,queue⟩ := try_recv_plain fits resting.toSound critical (by simpa using first)
    rw [taken]
    refine ⟨rfl,?_⟩
    have plain : mb.queue = message :: rest := by simpa using first
    simp [queued,left,queue,critical,plain]
  | cons m others =>
    rw [critical] at first
    simp only [reduceCtorEq,if_false] at first
    cases first
    obtain ⟨mb',taken,-,left,queue⟩ := try_recv_critical fits resting.toSound critical
    rw [taken]
    refine ⟨rfl,?_⟩
    simp [queued,left,queue,critical]
    omega

/-- A message that is taken and sent back goes to the end of the front queue. -/
theorem front_rotates {message : Message} {rest : List Message} (first : front mb = message :: rest) :
    front (mb.try_recv.1.try_send message).1 = rest ++ [message] ∧
    queued (mb.try_recv.1.try_send message).1 = queued mb := by
  have kept := try_recv_resting fits resting
  have fewer := (try_recv_front fits resting first).2
  have permits := kept.permits
  have held := resting.permits
  unfold front at first ⊢
  cases critical : mb.critical_queue with
  | nil =>
    have plain : mb.queue = message :: rest := by simpa [critical] using first
    have lane : urgent config message = false := resting.ordinary message (by rw [plain]; exact List.mem_cons_self)
    obtain ⟨mb',taken,-,left,queue⟩ := try_recv_plain fits resting.toSound critical plain
    rw [taken] at kept permits fewer ⊢
    rcases try_send_cases fits kept message with ⟨none,-⟩ | ⟨-,-,sentCritical,sentQueue⟩
    · simp only at none permits fewer
      omega
    · simp only [lane,Bool.false_eq_true,if_false,left,queue,List.append_nil] at sentCritical sentQueue
      refine ⟨by simp [sentCritical,sentQueue],?_⟩
      simp [queued,sentCritical,sentQueue,critical,plain]
  | cons m others =>
    simp only [critical,reduceCtorEq,if_false] at first
    cases first
    have lane : urgent config message = true := resting.critical message (by rw [critical]; exact List.mem_cons_self)
    obtain ⟨mb',taken,-,left,queue⟩ := try_recv_critical fits resting.toSound critical
    rw [taken] at kept permits fewer ⊢
    rcases try_send_cases fits kept message with ⟨none,-⟩ | ⟨-,-,sentCritical,sentQueue⟩
    · simp only at none permits fewer
      omega
    · simp only [lane,if_true,left,queue,List.append_nil] at sentCritical sentQueue
      refine ⟨by simp [sentCritical],?_⟩
      simp [queued,sentCritical,sentQueue,critical]

end

/-! ## One turn -/

section
variable (executor : Option (Executor σ)) (id : ActorId) {config : MailboxConfig} (fits : config.capacity < 2 ^ 64)
  {x : Scene σ} (resting : Resting config x.actor.mailbox)

omit σ in
theorem queued_le_try_recv {mb : Mailbox} (fits : config.capacity < 2 ^ 64) (resting : Resting config mb) :
    queued mb.try_recv.1 ≤ queued mb := by
  cases first : front mb with
  | nil =>
    have none : contents mb = [] := by
      rw [← List.length_eq_zero_iff,contents_length]
      have := (is_empty_iff resting).mpr first
      rw [Mailbox.is_empty,Mailbox.len,resting.size] at this
      simpa using this
    rw [try_recv_empty none]
  | cons message rest =>
    have := (try_recv_front fits resting first).2
    omega

/-- The loop takes a turn, or ends. -/
theorem loop_turn (n : Nat) (x : Scene σ) :
    match turn executor id x with
    | some z => loop executor id (n + 1) x = loop executor id n z
    | none => ∃ result, loop executor id (n + 1) x = some result := by
  rw [loop,turn]
  cases x.pop with
  | none => exact ⟨_,rfl⟩
  | some taken =>
    obtain ⟨queued,y⟩ := taken
    simp only
    generalize dispatch executor id y queued = dispatched
    obtain ⟨z,next⟩ := dispatched
    cases next with
    | panic => exact ⟨_,rfl⟩
    | done => rfl
    | drain => rfl

include fits resting

theorem pop_front {message : Message} {rest : List Message} (first : front x.actor.mailbox = message :: rest) :
    x.pop = some (message,x.release) := by
  have some_ : x.actor.mailbox.is_empty ≠ true := by
    rw [ne_eq,is_empty_iff resting,first]
    exact List.cons_ne_nil _ _
  simp [Scene.pop,some_,(try_recv_front fits resting first).1]

omit fits in
theorem pop_empty (none : front x.actor.mailbox = []) : x.pop = Option.none := by
  simp [Scene.pop,(is_empty_iff resting).mpr none]

/-- A turn makes the mailbox smaller, or sends an ordinary message of a suspended
    actor to the end of the front queue. -/
theorem turn_cases {z : Scene σ} (turns : turn executor id x = some z) :
    queued z.actor.mailbox < queued x.actor.mailbox ∨
    ∃ message rest, front x.actor.mailbox = message :: rest ∧ is_control message.payload = false ∧
      x.actor.state = .Suspended ∧ z.actor.state = .Suspended ∧ front z.actor.mailbox = rest ++ [message] ∧
      queued z.actor.mailbox = queued x.actor.mailbox := by
  cases first : front x.actor.mailbox with
  | nil => simp [turn,pop_empty resting first] at turns
  | cons message rest =>
    have fewer := (try_recv_front fits resting first).2
    have kept := try_recv_resting fits resting
    have after : z = (dispatch executor id x.release message).1 := by
      rw [turn,pop_front fits resting first] at turns
      simp only at turns
      split at turns
      · cases turns
      · next dispatched => rw [dispatched]; exact (Option.some.inj turns).symm
      · next dispatched => rw [dispatched]; exact (Option.some.inj turns).symm
    rcases dispatch_mailbox executor id x.release message with ⟨state,ordinary,sent⟩ | same | taken | cleared
    · right
      rw [sent] at after
      obtain ⟨rotated,counted⟩ := front_rotates fits resting first
      exact ⟨message,rest,rfl,ordinary,state,by rw [after]; exact state,by rw [after]; exact rotated,
        by rw [after]; exact counted⟩
    · left
      rw [after,same]
      show queued x.actor.mailbox.try_recv.1 < _
      omega
    · left
      rw [after,taken]
      have := queued_le_try_recv fits kept
      show queued x.actor.mailbox.try_recv.1.try_recv.1 < _
      omega
    · left
      rw [after,cleared]
      have empty := (clear_resting fits kept).2.1
      have none : queued x.actor.mailbox.try_recv.1.clear = 0 := by rw [← contents_length,empty]; rfl
      show queued x.actor.mailbox.try_recv.1.clear < _
      omega

theorem turn_resting {z : Scene σ} (turns : turn executor id x = some z) : Resting config z.actor.mailbox := by
  unfold turn at turns
  split at turns
  · cases turns
  · next queued y popped =>
    have kept := pop_resting fits resting popped
    have after : Resting config (dispatch executor id y queued).1.actor.mailbox := dispatch_resting fits kept
    split at turns
    · cases turns
    · next dispatched =>
      rw [dispatched] at after
      cases turns
      exact after
    · next dispatched =>
      rw [dispatched] at after
      cases turns
      exact after

/-- Who is stuck stays stuck. -/
theorem stuck_turns (stuck : Stuck x) : ∃ z, turn executor id x = some z ∧ Stuck z := by
  obtain ⟨state,some_,ordinary⟩ := stuck
  cases first : front x.actor.mailbox with
  | nil => exact absurd first some_
  | cons message rest =>
    have plain := ordinary message (by rw [first]; exact List.mem_cons_self)
    have sent : dispatch executor id x.release message =
        ((x.release.saw message).onMailbox (fun mb => (mb.try_send message).1),.done) := by
      have suspended : x.release.actor.state = .Suspended := state
      simp [dispatch,suspended,plain]
    refine ⟨(x.release.saw message).onMailbox (fun mb => (mb.try_send message).1),?_,state,?_,?_⟩
    · simp only [turn,pop_front fits resting first,sent]
    · show front (x.actor.mailbox.try_recv.1.try_send message).1 ≠ []
      rw [(front_rotates fits resting first).1]
      simp
    · show ∀ m ∈ front (x.actor.mailbox.try_recv.1.try_send message).1, _
      rw [(front_rotates fits resting first).1]
      intro m member
      refine ordinary m ?_
      rw [first]
      simpa [or_comm] using member

/-- A drain that gets stuck never ends. -/
theorem stuck_forever (stuck : Stuck x) (n : Nat) : loop executor id n x = none := by
  induction n generalizing x with
  | zero => rfl
  | succ n ih =>
    obtain ⟨z,turns,still⟩ := stuck_turns executor id fits resting stuck
    have step := loop_turn executor id n x
    rw [turns] at step
    rw [step]
    exact ih (turn_resting executor id fits resting turns) still

/-- How many ordinary messages are in front of the first control message. -/
def ahead (mb : Mailbox) : Nat := ((front mb).takeWhile (fun m => !is_control m.payload)).length

/-- A turn that is not stuck makes the mailbox smaller or brings a control message
    nearer. -/
theorem turn_nearer {z : Scene σ} (turns : turn executor id x = some z) (free : ¬Stuck x) :
    queued z.actor.mailbox < queued x.actor.mailbox ∨
    (queued z.actor.mailbox = queued x.actor.mailbox ∧ ahead z.actor.mailbox < ahead x.actor.mailbox) := by
  rcases turn_cases executor id fits resting turns with fewer | ⟨message,rest,first,ordinary,state,-,rotated,same⟩
  · exact .inl fewer
  · refine .inr ⟨same,?_⟩
    -- Some message further back is a control message.
    obtain ⟨control,member,isControl⟩ : ∃ control ∈ rest, is_control control.payload = true := by
      by_contra none
      refine free ⟨state,by rw [first]; exact List.cons_ne_nil _ _,?_⟩
      rw [first]
      intro m member
      rcases List.mem_cons.mp member with rfl | later
      · exact ordinary
      · by_contra control
        exact none ⟨m,later,by simpa using control⟩
    have stops : (rest ++ [message]).takeWhile (fun m => !is_control m.payload) =
        rest.takeWhile (fun m => !is_control m.payload) := by
      rw [List.takeWhile_append,if_neg]
      intro whole
      rw [← (List.takeWhile_prefix _).eq_of_length whole] at member
      have := List.mem_takeWhile_imp member
      simp [isControl] at this
    rw [ahead,ahead,rotated,first,stops,List.takeWhile_cons]
    simp [ordinary]

/-- A drain that never comes to a stuck turn ends. -/
theorem loop_ends (free : ∀ z, Comes executor id x z → ¬Stuck z) : ∃ n result, loop executor id n x = some result := by
  induction size : queued x.actor.mailbox using Nat.strong_induction_on generalizing x with
  | h size smaller =>
    induction distance : ahead x.actor.mailbox using Nat.strong_induction_on generalizing x with
    | h distance nearer =>
      have step := fun n => loop_turn executor id n x
      cases turns : turn executor id x with
      | none =>
        obtain ⟨result,ends⟩ := turns ▸ step 0
        exact ⟨1,result,ends⟩
      | some z =>
        simp only [turns] at step
        have kept := turn_resting executor id fits resting turns
        have later : ∀ w, Comes executor id z w → ¬Stuck w :=
          fun w comes => free w (Transition.Reach.after (a := ()) trivial turns comes)
        have ends : ∃ n result, loop executor id n z = some result := by
          rcases turn_nearer executor id fits resting turns (free x .start) with fewer | ⟨same,closer⟩
          · exact smaller _ (size ▸ fewer) kept later rfl
          · exact nearer _ (distance ▸ closer) kept later (same.trans size) rfl
        obtain ⟨n,result,ended⟩ := ends
        exact ⟨n + 1,result,(step n).trans ended⟩

theorem loop_ends_iff :
    (∃ n result, loop executor id n x = some result) ↔ ∀ z, Comes executor id x z → ¬Stuck z := by
  constructor
  · intro ends z comes stuck
    have kept : Resting config z.actor.mailbox ∧ ∃ n result, loop executor id n z = some result := by
      clear stuck
      induction comes with
      | start => exact ⟨resting,ends⟩
      | @next y y' _ _ _ turns ih =>
        obtain ⟨rested,n,result,ended⟩ := ih
        refine ⟨turn_resting executor id fits rested turns,?_⟩
        cases n with
        | zero => cases ended
        | succ n =>
          have step := loop_turn executor id n y
          simp only [show turn executor id y = some y' from turns] at step
          exact ⟨n,result,step ▸ ended⟩
    obtain ⟨rested,n,result,ended⟩ := kept
    rw [stuck_forever executor id fits rested stuck] at ended
    cases ended
  · exact loop_ends executor id fits resting

theorem process_ends_iff (message : Message) :
    (∃ n result, process executor id n x message = some result) ↔ NeverStuck executor id x message := by
  have kept : Resting config (dispatch executor id x message).1.actor.mailbox := dispatch_resting fits resting
  unfold process NeverStuck
  match dispatch executor id x message,kept with
  | (y,.done),_ => exact ⟨fun _ => nofun,fun _ => ⟨0,_,rfl⟩⟩
  | (y,.panic),_ => exact ⟨fun _ => nofun,fun _ => ⟨0,_,rfl⟩⟩
  | (y,.drain),kept =>
    rw [loop_ends_iff executor id fits kept]
    exact ⟨fun free _ => free,fun free => free rfl⟩

end

/-- For every registry, actor, mailbox, message and executor: the dispatch of the
    message ends exactly when no turn of the drain it starts, if any, finds the
    actor suspended with only ordinary messages in the queue to take from. -/
theorem dispatch_ends_iff (executor : Option (Executor σ)) (run : Run σ) (id : ActorId) (message : Message)
    {config : MailboxConfig} (proper : Proper config run.registry id) :
    (∃ fuel result, process_single_message executor fuel run id message = some result) ↔
    ∀ a, actorOf run.registry id = some a → NeverStuck executor id (sceneOf run a) message := by
  cases found : actorOf run.registry id with
  | none =>
    refine ⟨fun _ => nofun,fun _ => ⟨1,(run,.returned),?_⟩⟩
    rw [process_single_message,unknown_state proper found]
  | some a =>
    obtain ⟨known,-⟩ := known_of found
    have same := inside_sceneOf found
    have ends := process_ends_iff executor id proper.fits (x := sceneOf run a) (proper.resting a found) message
    simp only [Option.some.injEq,forall_eq']
    rw [← ends]
    constructor
    · rintro ⟨fuel,⟨after,exit⟩,ended⟩
      rw [← same] at ended
      obtain ⟨n,x',runs,-⟩ := (process_iff known).mp ⟨fuel,ended⟩
      exact ⟨n,_,runs⟩
    · rintro ⟨n,⟨x',exit⟩,runs⟩
      obtain ⟨fuel,ended⟩ := (process_iff known).mpr ⟨n,x',runs,rfl⟩
      rw [same] at ended
      exact ⟨fuel,_,ended⟩

/-- A resume of a suspended actor that ends: its mailbox holds the resume and one
    ordinary message. -/
theorem dispatch_ends_iff_resumed :
    let message (payload : MessagePayload) : Message := ⟨none,payload,.Normal,0⟩
    let resume := message (.Signal .Resume)
    let a : Actor := ⟨.Suspended,0,filled { capacity := 8 } ⟨1⟩ [resume,message .Empty]⟩
    let run : Run Unit := { registry := lone ⟨1⟩ a, executor := () }
    (∃ fuel result, process_single_message none fuel run ⟨1⟩ resume = some result) ∧
      NeverStuck none ⟨1⟩ (sceneOf run a) resume := by
  intro message resume a run
  have fits : ({ capacity := 8 } : MailboxConfig).capacity < 2 ^ 64 := by decide
  have proper : Proper { capacity := 8 } run.registry ⟨1⟩ := proper_lone fits ⟨1⟩ (resting_filled fits ⟨1⟩ _) (by decide)
  have returns : (process_single_message none 3 run ⟨1⟩ resume).isSome = true := by decide +kernel
  have ends : ∃ fuel result, process_single_message none fuel run ⟨1⟩ resume = some result :=
    ⟨3,Option.isSome_iff_exists.mp returns⟩
  exact ⟨ends,(dispatch_ends_iff none run ⟨1⟩ resume proper).mp ends a (actorOf_lone ⟨1⟩ a)⟩

/-- A pause behind the resume, and two ordinary messages behind it: the pause
    suspends the actor again inside the drain, which then takes the last message
    and puts it back for ever. -/
theorem pause_in_drain_diverges :
    let message (payload : MessagePayload) : Message := ⟨none,payload,.Normal,0⟩
    let resume := message (.Signal .Resume)
    let a : Actor := ⟨.Suspended,0,
      filled { capacity := 8 } ⟨1⟩ [resume,message (.Signal .Pause),message (.Custom [1]),message (.Custom [2])]⟩
    let run : Run Unit := { registry := lone ⟨1⟩ a, executor := () }
    ¬∃ fuel result, process_single_message none fuel run ⟨1⟩ resume = some result := by
  intro message resume a run
  have fits : ({ capacity := 8 } : MailboxConfig).capacity < 2 ^ 64 := by decide
  have drains : (dispatch none ⟨1⟩ (sceneOf run a) resume).2 = .drain := by decide +kernel
  -- The first turn takes the pause, and throws the message behind it away.
  have paused : (turn none ⟨1⟩ (dispatch none ⟨1⟩ (sceneOf run a) resume).1).map
      (fun z => (z.actor.state,front z.actor.mailbox)) = some (.Suspended,[message (.Custom [2])]) := by decide +kernel
  obtain ⟨z,turns,left⟩ := Option.map_eq_some_iff.mp paused
  obtain ⟨state,queue⟩ := Prod.mk.inj left
  have stuck : Stuck z := by
    refine ⟨state,by rw [queue]; exact List.cons_ne_nil _ _,?_⟩
    rw [queue]
    decide
  rintro ⟨fuel,⟨after,exit⟩,ended⟩
  have found := actorOf_lone ⟨1⟩ a
  have same : (sceneOf run a).inside run.registry ⟨1⟩ = run := inside_sceneOf found
  rw [← same] at ended
  obtain ⟨n,x',runs,-⟩ := (process_iff (known_of found).1).mp ⟨fuel,ended⟩
  have resting : Resting { capacity := 8 } (sceneOf run a).actor.mailbox := by
    dsimp only [sceneOf,a]
    exact resting_filled fits ⟨1⟩ _
  have free := (process_ends_iff none ⟨1⟩ fits resting resume).mp ⟨n,_,runs⟩
  exact free drains z (.next (a := ()) .start trivial turns) stuck

end ActorKit.DispatchEnds
