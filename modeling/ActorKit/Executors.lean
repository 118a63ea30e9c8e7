import ActorKit.DispatchEnds

/-!
# The lifecycle with and without an executor

State changes are made in two places: without an executor, or when it is not
ready, every lifecycle message and every signal changes the state of an active
actor; after a successful call only `Start` and `Stop` do. The states an actor
goes through are the same exactly as long as no active actor gets a signal that
would change its state.
-/

namespace ActorKit.Executors
open ActorKit.mailbox ActorKit.registry ActorKit.queue ActorKit.scheduler ActorKit.dispatch
open ActorKit.MailboxCalls ActorKit.Batches ActorKit.Turns ActorKit.DispatchEnds

/-- The three installations: no executor, one that always returns `Success`, one
    that always returns `NotReady`. -/
inductive Installed where
  | absent
  | success
  | notReady
deriving DecidableEq, Repr

def Installed.executor : Installed → Option (Executor Unit)
  | .absent => none
  | .success => some (fun s _ _ => (s,.returns .Success))
  | .notReady => some (fun s _ _ => (s,.returns .NotReady))

/-- What each does to the state of an active actor. -/
def Installed.effect : Installed → MessagePayload → Option ActorState
  | .absent,payload => state_change payload
  | .success,payload => success_change payload
  | .notReady,payload => state_change payload

/-- The states an actor was found in by the messages that acted on it, and the
    state it is left in. -/
def passed (run : Run Unit) (id : ActorId) : List ActorState :=
  run.seen.map (·.1) ++ (run.registry.get_state id).toList

/-- A signal that an active actor obeys without an executor, but not after a
    successful call: a pause, a resume while it is being created, a restart while
    it is running. -/
def overlooked : ActorState → MessagePayload → Bool
  | .Running,.Signal .Pause => true
  | .Running,.Signal .Restart => true
  | .Creating,.Signal .Pause => true
  | .Creating,.Signal .Resume => true
  | _,_ => false

/-- The tasks go through with this installation, and the actor through these
    states. -/
def Passes (installed : Installed) (r : ActorRegistry) (id : ActorId) (tasks : List Task) (states : List ActorState) : Prop :=
  ∃ fuel run, process_tasks installed.executor fuel { registry := r, executor := () } tasks = some run ∧
    passed run id = states

/-! ## Two installations side by side -/

/-- Same actor, same history. -/
structure Agree (x y : Scene Unit) : Prop where
  actor : y.actor = x.actor
  seen : y.seen = x.seen

/-- The states passed so far. -/
def visited (x : Scene Unit) : List ActorState := x.seen.map (·.1) ++ [x.actor.state]

/-- The states passed so far already differ. -/
def Split (x y : Scene Unit) : Prop :=
  ∃ states s t, s ≠ t ∧ states ++ [s] <+: visited x ∧ states ++ [t] <+: visited y

/-- Both installations do the same to an actor in this state. -/
def SameEffect (k k' : Installed) (e : ActorState × Message) : Prop :=
  (e.1 = .Running ∨ e.1 = .Creating) → (k.effect e.2.payload).getD e.1 = (k'.effect e.2.payload).getD e.1

theorem same_effect_iff (e : ActorState × Message) :
    SameEffect .success .absent e ↔ overlooked e.1 e.2.payload = false := by
  obtain ⟨state,message⟩ := e
  unfold SameEffect Installed.effect
  generalize message.payload = payload
  cases state with
  | Stopped => simp [overlooked]
  | Failed => simp [overlooked]
  | Suspended => simp [overlooked]
  | Running =>
    match payload with
    | .Signal .Pause | .Signal .Resume | .Signal .Restart => simp [overlooked,state_change,success_change]
    | .Start | .Stop | .Empty | .Custom _ => simp [overlooked,state_change,success_change]
  | Creating =>
    match payload with
    | .Signal .Pause | .Signal .Resume | .Signal .Restart => simp [overlooked,state_change,success_change]
    | .Start | .Stop | .Empty | .Custom _ => simp [overlooked,state_change,success_change]

theorem split_ne {x y : Scene Unit} (split : Split x y) : visited x ≠ visited y := by
  obtain ⟨states,s,t,apart,left,right⟩ := split
  intro same
  rw [same] at left
  have equal := (List.prefix_of_prefix_length_le left right (by simp)).eq_of_length (by simp)
  exact apart (by simpa using equal)

/-- Executing a message with one of the installations. -/
theorem execute_installed (k : Installed) (id : ActorId) (x : Scene Unit) (message : Message) :
    ∃ calls, execute k.executor id x message =
      ((({ x with calls } : Scene Unit).change (k.effect message.payload)).count,.done) := by
  cases k with
  | absent => exact ⟨x.calls,rfl⟩
  | success =>
    refine ⟨x.calls ++ [(message,.returns .Success)],?_⟩
    simp only [execute,Installed.executor,Scene.called,Scene.answered,Installed.effect]
  | notReady =>
    refine ⟨x.calls ++ [(message,.returns .NotReady)],?_⟩
    simp only [execute,Installed.executor,Scene.called,Scene.answered,Installed.effect]

section
variable (k : Installed) (id : ActorId)

theorem never_panics : ¬Panics k.executor id := by
  rintro ⟨x,message,panics⟩
  unfold dispatch at panics
  split at panics
  · obtain ⟨calls,executed⟩ := execute_installed k id (x.saw message) message
    rw [executed] at panics
    cases panics
  · obtain ⟨calls,executed⟩ := execute_installed k id (x.saw message) message
    rw [executed] at panics
    cases panics
  · split at panics
    · simp only at panics
      split at panics <;> cases panics
    · cases panics
  · cases panics
  · cases panics

theorem returned_of_process {n : Nat} {x y : Scene Unit} {message : Message} {exit : Exit}
    (ended : process k.executor id n x message = some (y,exit)) : exit = .returned := by
  cases exit with
  | returned => rfl
  | panicked => exact absurd (panics_of_process ended) (never_panics k id)

theorem dispatch_done {x : Scene Unit} (active : x.actor.state = .Running ∨ x.actor.state = .Creating) (message : Message) :
    dispatch k.executor id x message = ((execute k.executor id (x.saw message) message).1,.done) := by
  obtain ⟨calls,executed⟩ := execute_installed k id (x.saw message) message
  rcases active with state | state <;> simp only [dispatch,state,executed]

theorem dispatch_idle {x : Scene Unit} (idle : x.actor.state = .Stopped ∨ x.actor.state = .Failed) (message : Message) :
    dispatch k.executor id x message = (x,.done) := by
  rcases idle with state | state <;> simp only [dispatch,state]

theorem dispatch_suspended {x : Scene Unit} (suspended : x.actor.state = .Suspended) (message : Message) :
    dispatch k.executor id x message =
      if is_control message.payload then
        (((x.saw message).change (state_change message.payload)).release,
          match (state_change message.payload).getD .Suspended with
          | .Running | .Creating => .drain
          | .Suspended | .Stopped | .Failed => .done)
      else ((x.saw message).onMailbox (fun mb => (mb.try_send message).1),.done) := by
  have after : (((x.saw message).change (state_change message.payload)).release).actor.state =
      (state_change message.payload).getD .Suspended := by rw [← suspended]; rfl
  simp only [dispatch,suspended,after]
  cases (state_change message.payload).getD .Suspended <;> rfl

end

theorem state_kinds (state : ActorState) :
    (state = .Running ∨ state = .Creating) ∨ state = .Suspended ∨ (state = .Stopped ∨ state = .Failed) := by
  cases state <;> simp

/-- What a message adds to the history. -/
theorem dispatch_seen (k : Installed) (id : ActorId) (x : Scene Unit) (message : Message) :
    (dispatch k.executor id x message).1 = x ∨
    (dispatch k.executor id x message).1.seen = x.seen ++ [(x.actor.state,message)] := by
  rcases state_kinds x.actor.state with active | suspended | idle
  · right
    obtain ⟨calls,executed⟩ := execute_installed k id (x.saw message) message
    rw [dispatch_done k id active,executed]
    rfl
  · right
    rw [dispatch_suspended k id suspended]
    split <;> rfl
  · left
    rw [dispatch_idle k id idle]

/-- More was seen, and the states passed are some more. -/
structure Extends (x y : Scene Unit) : Prop where
  seen : x.seen <+: y.seen
  visited : visited x <+: visited y

theorem keeps_extending (k : Installed) (id : ActorId) : KeepsUp k.executor id Extends where
  refl := fun _ => ⟨List.prefix_refl _,List.prefix_refl _⟩
  trans := fun first second => ⟨first.seen.trans second.seen,first.visited.trans second.visited⟩
  dispatches := by
    intro x message
    rcases dispatch_seen k id x message with same | seen
    · rw [same]
      exact ⟨List.prefix_refl _,List.prefix_refl _⟩
    · exact ⟨by rw [seen]; exact List.prefix_append _ _,by simp [visited,seen]⟩
  releases := fun _ => ⟨List.prefix_refl _,List.prefix_refl _⟩
  fails := fun panics => absurd panics (never_panics k id)

theorem split_extends {x x' y y' : Scene Unit} (split : Split x y) (left : Extends x x') (right : Extends y y') : Split x' y' := by
  obtain ⟨states,s,t,apart,first,second⟩ := split
  exact ⟨states,s,t,apart,first.trans left.visited,second.trans right.visited⟩

section
variable (k k' : Installed) (id : ActorId) {x y : Scene Unit} (agree : Agree x y)
include agree

/-- Side by side so far, the two dispatch an active actor's message: the states
    part exactly if the effects differ. -/
theorem active_beside (active : x.actor.state = .Running ∨ x.actor.state = .Creating) (message : Message) :
    (SameEffect k k' (x.actor.state,message) ∧
      Agree (execute k.executor id (x.saw message) message).1 (execute k'.executor id (y.saw message) message).1) ∨
    (¬SameEffect k k' (x.actor.state,message) ∧
      Split (execute k.executor id (x.saw message) message).1 (execute k'.executor id (y.saw message) message).1) := by
  obtain ⟨calls,executed⟩ := execute_installed k id (x.saw message) message
  obtain ⟨calls',executed'⟩ := execute_installed k' id (y.saw message) message
  rw [executed,executed']
  by_cases same : SameEffect k k' (x.actor.state,message)
  · refine .inl ⟨same,?_,?_⟩
    · have effects := same active
      simp only at effects
      simp [Scene.count,Scene.change,Scene.release,Scene.onMailbox,Scene.saw,agree.actor,effects]
    · simp [Scene.count,Scene.change,Scene.release,Scene.onMailbox,Scene.saw,agree.actor,agree.seen]
  · refine .inr ⟨same,visited x,(k.effect message.payload).getD x.actor.state,(k'.effect message.payload).getD x.actor.state,?_,?_,?_⟩
    · exact fun effects => same (fun _ => effects)
    · simp [visited,Scene.count,Scene.change,Scene.release,Scene.onMailbox,Scene.saw]
    · simp [visited,Scene.count,Scene.change,Scene.release,Scene.onMailbox,Scene.saw,agree.actor,agree.seen]

theorem suspended_beside (suspended : x.actor.state = .Suspended) (message : Message) :
    Agree (dispatch k.executor id x message).1 (dispatch k'.executor id y message).1 ∧
    (dispatch k.executor id x message).2 = (dispatch k'.executor id y message).2 := by
  have suspended' : y.actor.state = .Suspended := by rw [agree.actor,suspended]
  rw [dispatch_suspended k id suspended,dispatch_suspended k' id suspended']
  split
  · refine ⟨⟨?_,?_⟩,rfl⟩
    · simp [Scene.change,Scene.release,Scene.onMailbox,Scene.saw,agree.actor]
    · simp [Scene.change,Scene.release,Scene.onMailbox,Scene.saw,agree.actor,agree.seen]
  · refine ⟨⟨?_,?_⟩,rfl⟩
    · simp [Scene.onMailbox,Scene.saw,agree.actor]
    · simp [Scene.onMailbox,Scene.saw,agree.actor,agree.seen]

/-- Side by side so far, two dispatches of one message stay so, or the states part
    and the message has different effects. -/
theorem dispatch_beside (message : Message) :
    (Agree (dispatch k.executor id x message).1 (dispatch k'.executor id y message).1 ∧
      (dispatch k.executor id x message).2 = (dispatch k'.executor id y message).2 ∧
      ∀ e ∈ (dispatch k.executor id x message).1.seen, e ∈ x.seen ∨ SameEffect k k' e) ∨
    (Split (dispatch k.executor id x message).1 (dispatch k'.executor id y message).1 ∧
      ∃ e ∈ (dispatch k.executor id x message).1.seen, ¬SameEffect k k' e) := by
  have seen (same : SameEffect k k' (x.actor.state,message)) :
      ∀ e ∈ (dispatch k.executor id x message).1.seen, e ∈ x.seen ∨ SameEffect k k' e := by
    intro e member
    rcases dispatch_seen k id x message with unchanged | seen
    · rw [unchanged] at member
      exact .inl member
    · rw [seen] at member
      rcases List.mem_append.mp member with before | last
      · exact .inl before
      · exact .inr (List.mem_singleton.mp last ▸ same)
  rcases state_kinds x.actor.state with active | suspended | idle
  · have active' : y.actor.state = .Running ∨ y.actor.state = .Creating := by rwa [agree.actor]
    have beside := active_beside k k' id agree active message
    rw [dispatch_done k id active] at seen ⊢
    rw [dispatch_done k' id active']
    rcases beside with ⟨same,agrees⟩ | ⟨differ,split⟩
    · exact .inl ⟨agrees,rfl,seen same⟩
    · refine .inr ⟨split,_,?_,differ⟩
      obtain ⟨calls,executed⟩ := execute_installed k id (x.saw message) message
      rw [executed]
      exact List.mem_append_right _ List.mem_cons_self
  · obtain ⟨agrees,next⟩ := suspended_beside k k' id agree suspended message
    have same : SameEffect k k' (x.actor.state,message) := by
      intro active
      rw [suspended] at active
      simp at active
    exact .inl ⟨agrees,next,seen same⟩
  · have idle' : y.actor.state = .Stopped ∨ y.actor.state = .Failed := by rwa [agree.actor]
    rw [dispatch_idle k id idle,dispatch_idle k' id idle']
    exact .inl ⟨agree,rfl,fun e member => .inl member⟩

/-- One installation came to `x'`. The other comes to the same, with the same fuel
    and without a difference on the way; or wherever it comes to, the states
    differ. -/
def Beside (x x' : Scene Unit) (n : Nat) (ends : Nat → Scene Unit → Prop) : Prop :=
  (∃ y', ends n y' ∧ Agree x' y' ∧ ∀ e ∈ x'.seen, e ∈ x.seen ∨ SameEffect k k' e) ∨
  ((∃ e ∈ x'.seen, ¬SameEffect k k' e) ∧ ∀ n' y', ends n' y' → Split x' y')

omit agree in
/-- What comes after a part that was the same. -/
theorem Beside.after {x x₁ x' : Scene Unit} {n n' : Nat} {ends ends' : Nat → Scene Unit → Prop}
    (first : ∀ e ∈ x₁.seen, e ∈ x.seen ∨ SameEffect k k' e) (beside : Beside k k' x₁ x' n ends)
    (there : ∀ y', ends n y' → ends' n' y') (back : ∀ m y', ends' m y' → ∃ m', ends m' y') : Beside k k' x x' n' ends' := by
  rcases beside with ⟨y',ended,agrees,same⟩ | ⟨differs,splits⟩
  · refine .inl ⟨y',there y' ended,agrees,fun e member => ?_⟩
    rcases same e member with before | same
    · exact first e before
    · exact .inr same
  · refine .inr ⟨differs,fun m y' ended => ?_⟩
    obtain ⟨m',ended⟩ := back m y' ended
    exact splits m' y' ended

theorem pop_beside :
    (x.pop = none ∧ y.pop = none) ∨ ∃ queued, x.pop = some (queued,x.release) ∧ y.pop = some (queued,y.release) := by
  unfold Scene.pop
  rw [agree.actor]
  split
  · exact .inl ⟨rfl,rfl⟩
  · split
    · next queued _ => exact .inr ⟨queued,rfl,rfl⟩
    · exact .inl ⟨rfl,rfl⟩

theorem release_beside : Agree x.release y.release :=
  ⟨by simp [Scene.release,Scene.onMailbox,agree.actor],agree.seen⟩

omit agree in
theorem loop_next {x : Scene Unit} {queued : Message} (popped : x.pop = some (queued,x.release)) (n : Nat) :
    loop k.executor id (n + 1) x = loop k.executor id n (dispatch k.executor id x.release queued).1 := by
  have calm : (dispatch k.executor id x.release queued).2 ≠ .panic := fun panics => never_panics k id ⟨_,_,panics⟩
  simp only [loop,popped]
  generalize dispatch k.executor id x.release queued = dispatched at calm ⊢
  obtain ⟨z,next⟩ := dispatched
  cases next with
  | panic => exact absurd rfl calm
  | done => rfl
  | drain => rfl

omit agree in
/-- What comes after the states have parted. -/
theorem Beside.split {x x₁ x' y₁ : Scene Unit} {n : Nat} {ends : Nat → Scene Unit → Prop} (split : Split x₁ y₁)
    (differs : ∃ e ∈ x₁.seen, ¬SameEffect k k' e) (left : Extends x₁ x') (right : ∀ n y', ends n y' → Extends y₁ y') :
    Beside k k' x x' n ends := by
  obtain ⟨e,member,differs⟩ := differs
  exact .inr ⟨⟨e,left.seen.subset member,differs⟩,fun n y' ended => split_extends split left (right n y' ended)⟩

theorem loop_beside {n : Nat} {x' : Scene Unit} (ended : loop k.executor id n x = some (x',.returned)) :
    Beside k k' x x' n (fun n y' => loop k'.executor id n y = some (y',.returned)) := by
  induction n generalizing x y with
  | zero => cases ended
  | succ n ih =>
    rcases pop_beside agree with ⟨left,right⟩ | ⟨queued,left,right⟩
    · simp only [loop,left] at ended
      cases ended
      exact .inl ⟨y,by simp only [loop,right],agree,fun e member => .inl member⟩
    · rw [loop_next k id left] at ended
      have turns : ∀ m y', loop k'.executor id m y = some (y',.returned) →
          ∃ m', loop k'.executor id m' (dispatch k'.executor id y.release queued).1 = some (y',.returned) := by
        intro m y' ended
        cases m with
        | zero => cases ended
        | succ m => exact ⟨m,(loop_next k' id right m).symm.trans ended⟩
      rcases dispatch_beside k k' id (release_beside agree) queued with ⟨agrees,-,same⟩ | ⟨split,differs⟩
      · refine Beside.after k k' same (ih agrees ended) (fun y' ended => ?_) turns
        exact (loop_next k' id right n).trans ended
      · refine Beside.split k k' split differs ((keeps_extending k id).loop ended) (fun m y' ended => ?_)
        obtain ⟨m',ended⟩ := turns m y' ended
        exact (keeps_extending k' id).loop ended

omit agree in
theorem process_after {n : Nat} {x x' : Scene Unit} {message : Message}
    (ended : process k.executor id n x message = some (x',.returned)) :
    Extends (dispatch k.executor id x message).1 x' := by
  unfold process at ended
  split at ended
  · next dispatched =>
    cases ended
    rw [dispatched]
    exact (keeps_extending k id).refl _
  · cases ended
  · next dispatched =>
    rw [dispatched]
    exact (keeps_extending k id).loop ended

theorem process_beside {n : Nat} {x' : Scene Unit} {message : Message}
    (ended : process k.executor id n x message = some (x',.returned)) :
    Beside k k' x x' n (fun n y' => process k'.executor id n y message = some (y',.returned)) := by
  rcases dispatch_beside k k' id agree message with ⟨agrees,next,same⟩ | ⟨split,differs⟩
  · unfold process at ended ⊢
    match dispatch k.executor id x message,dispatch k'.executor id y message,agrees,next,same,ended with
    | (z,.done),(w,_),agrees,rfl,same,ended =>
      cases ended
      exact .inl ⟨w,rfl,agrees,same⟩
    | (z,.drain),(w,_),agrees,rfl,same,ended =>
      exact Beside.after k k' same (loop_beside k k' id agrees ended) (fun _ ended => ended) (fun m _ ended => ⟨m,ended⟩)
  · exact Beside.split k k' split differs (process_after k id ended) (fun _ _ ended => process_after k' id ended)

omit agree in
theorem serve_next {n : Nat} {x x' : Scene Unit} {message : Message} {rest : List Message} :
    serve k.executor id n x (message :: rest) = some x' ↔
    ∃ x₁, process k.executor id n x message = some (x₁,.returned) ∧ serve k.executor id n x₁ rest = some x' := by
  rw [serve]
  split
  · next x₁ processed => simp [processed]
  · next processed => exact absurd (panics_of_process processed) (never_panics k id)
  · next endless => simp [endless]

theorem serve_beside {n : Nat} {x' : Scene Unit} {messages : List Message}
    (ended : serve k.executor id n x messages = some x') :
    Beside k k' x x' n (fun n y' => serve k'.executor id n y messages = some y') := by
  induction messages generalizing x y with
  | nil =>
    cases ended
    exact .inl ⟨y,rfl,agree,fun e member => .inl member⟩
  | cons message rest ih =>
    obtain ⟨x₁,processed,served⟩ := (serve_next k id).mp ended
    rcases process_beside k k' id agree processed with ⟨y₁,processed',agrees,same⟩ | ⟨differs,splits⟩
    · refine Beside.after k k' same (ih agrees served) (fun y' served => (serve_next k' id).mpr ⟨y₁,processed',served⟩) ?_
      intro m y' ended
      obtain ⟨y₂,again,served⟩ := (serve_next k' id).mp ended
      -- With enough fuel for both, the message ends in one scene.
      have one := (process_le (Nat.le_max_left n m) processed').symm.trans (process_le (Nat.le_max_right n m) again)
      cases one
      exact ⟨m,served⟩
    · refine .inr ⟨?_,fun m y' ended => ?_⟩
      · obtain ⟨e,member,differs⟩ := differs
        exact ⟨e,((keeps_extending k id).serve served).seen.subset member,differs⟩
      · obtain ⟨y₁,processed',served'⟩ := (serve_next k' id).mp ended
        exact split_extends (splits m y₁ processed') ((keeps_extending k id).serve served)
          ((keeps_extending k' id).serve served')

end

/-! ## With success every run ends -/

theorem success_not_suspended (id : ActorId) {x : Scene Unit} (awake : x.actor.state ≠ .Suspended) (message : Message) :
    (dispatch Installed.success.executor id x message).1.actor.state ≠ .Suspended := by
  rcases state_kinds x.actor.state with active | suspended | idle
  · obtain ⟨calls,executed⟩ := execute_installed .success id (x.saw message) message
    rw [dispatch_done .success id active,executed]
    show (success_change message.payload).getD x.actor.state ≠ .Suspended
    unfold success_change
    split
    · exact ActorState.noConfusion
    · exact ActorState.noConfusion
    · exact awake
  · exact absurd suspended awake
  · rwa [dispatch_idle .success id idle]

/-- A drain begins with an active actor. -/
theorem drain_awake {k : Installed} {id : ActorId} {x : Scene Unit} {message : Message}
    (drains : (dispatch k.executor id x message).2 = .drain) :
    (dispatch k.executor id x message).1.actor.state ≠ .Suspended := by
  rcases state_kinds x.actor.state with active | suspended | idle
  · rw [dispatch_done k id active] at drains
    cases drains
  · have after : (x.saw message).actor.state = .Suspended := suspended
    rw [dispatch_suspended k id suspended] at drains ⊢
    split at drains
    · next control =>
      rw [if_pos control]
      simp only [Scene.release,Scene.onMailbox,Scene.change,after]
      intro still
      rw [still] at drains
      cases drains
    · cases drains
  · rw [dispatch_idle k id idle] at drains
    cases drains

/-- With success nobody is suspended inside a drain. -/
theorem success_never_stuck (id : ActorId) (x : Scene Unit) (message : Message) :
    NeverStuck Installed.success.executor id x message := by
  intro drains z comes stuck
  refine absurd stuck.1 ?_
  clear stuck
  induction comes with
  | start => exact drain_awake drains
  | next _ _ turns ih =>
    simp only [turn] at turns
    split at turns
    · cases turns
    · next queued y popped =>
      have awake : y.actor.state ≠ .Suspended := by rwa [pop_release popped]
      have after := success_not_suspended id awake queued
      split at turns
      · cases turns
      · next dispatched =>
        rw [dispatched] at after
        cases turns
        exact after
      · next dispatched =>
        rw [dispatched] at after
        cases turns
        exact after

theorem success_ends (id : ActorId) {config : MailboxConfig} (fits : config.capacity < 2 ^ 64) {x : Scene Unit}
    (resting : Resting config x.actor.mailbox) (messages : List Message) :
    ∃ n x', serve Installed.success.executor id n x messages = some x' := by
  induction messages generalizing x with
  | nil => exact ⟨0,x,rfl⟩
  | cons message rest ih =>
    obtain ⟨n,⟨x₁,exit⟩,processed⟩ :=
      (process_ends_iff _ id fits resting message).mpr (success_never_stuck id x message)
    obtain rfl := returned_of_process .success id processed
    obtain ⟨m,x',served⟩ := ih ((keeps_resting fits).process processed resting)
    exact ⟨max n m,x',(serve_next .success id).mpr
      ⟨x₁,process_le (Nat.le_max_left n m) processed,serve_le (Nat.le_max_right n m) served⟩⟩

/-! ## The states an actor goes through -/

section
variable {r : ActorRegistry} {id : ActorId} {a : Actor} (found : actorOf r id = some a) {tasks : List Task}
  (same : ∀ task ∈ tasks, task.actor_id = id)
include found

theorem passed_inside (x : Scene Unit) : passed (x.inside r id) id = visited x := by
  have state : (x.inside r id).registry.get_state id = some x.actor.state := get_state_put (known_of found).1 x.actor
  rw [passed,state]
  rfl

include same

theorem tasks_iff (k : Installed) (run : Run Unit) :
    (∃ fuel, process_tasks k.executor fuel { registry := r, executor := () } tasks = some run) ↔
    ∃ n x', serve k.executor id n (sceneOf { registry := r, executor := () } a) (tasks.flatMap Task.messages) = some x' ∧
      run = x'.inside r id := by
  rw [← serve_iff (known_of found).1]
  have inside : (sceneOf { registry := r, executor := () } a).inside r id = { registry := r, executor := () } :=
    inside_sceneOf found
  constructor
  · rintro ⟨fuel,ended⟩
    rw [tasks_singles,flat_singles same] at ended
    exact ⟨fuel,by rw [inside]; exact ended⟩
  · rintro ⟨fuel,ended⟩
    rw [inside] at ended
    refine ⟨fuel,?_⟩
    rw [tasks_singles,flat_singles same]
    exact ended

theorem passes_iff (k : Installed) (states : List ActorState) :
    Passes k r id tasks states ↔
    ∃ n x', serve k.executor id n (sceneOf { registry := r, executor := () } a) (tasks.flatMap Task.messages) = some x' ∧
      visited x' = states := by
  constructor
  · rintro ⟨fuel,run,ended,states⟩
    obtain ⟨n,x',served,rfl⟩ := (tasks_iff found same k run).mp ⟨fuel,ended⟩
    exact ⟨n,x',served,by rw [← passed_inside found]; exact states⟩
  · rintro ⟨n,x',served,states⟩
    obtain ⟨fuel,ended⟩ := (tasks_iff found same k _).mpr ⟨n,x',served,rfl⟩
    exact ⟨fuel,_,ended,by rw [passed_inside found]; exact states⟩

end

/-- Over a whole sequence of messages, another installation passes the same states
    exactly if every message seen has the same effect. -/
theorem passes_together {x x' : Scene Unit} {id : ActorId} {n : Nat} {messages : List Message} (fresh : x.seen = [])
    (served : serve Installed.success.executor id n x messages = some x') (k : Installed) :
    (∃ m y', serve k.executor id m x messages = some y' ∧ visited y' = visited x') ↔
    ∀ e ∈ x'.seen, SameEffect .success k e := by
  have beside := serve_beside .success k id (x := x) ⟨rfl,rfl⟩ served
  constructor
  · rintro ⟨m,y',ended,states⟩
    rcases beside with ⟨_,_,_,same⟩ | ⟨_,splits⟩
    · intro e member
      rcases same e member with before | same
      · rw [fresh] at before
        cases before
      · exact same
    · exact absurd states.symm (split_ne (splits m y' ended))
  · intro all
    rcases beside with ⟨y',ended,agrees,_⟩ | ⟨⟨e,member,differs⟩,_⟩
    · refine ⟨n,y',ended,?_⟩
      rw [visited,visited,agrees.actor,agrees.seen]
    · exact absurd (all e member) differs

/-- For every registry, every actor with its state and mailbox, and all tasks for
    it: the run with an executor that always succeeds ends; and the actor goes
    through the same states as with the two other installations exactly when no
    step of this run gives a pause to an active actor, a resume to one that is being
    created or a restart to one that is running. -/
theorem lifecycle_same_iff {config : MailboxConfig} {r : ActorRegistry} {id : ActorId} (proper : Proper config r id)
    (tasks : List Task) (same : ∀ task ∈ tasks, task.actor_id = id) :
    ∃ fuel run, process_tasks Installed.success.executor fuel { registry := r, executor := () } tasks = some run ∧
      ((∃ states, ∀ installed : Installed, Passes installed r id tasks states) ↔
        ∀ e ∈ run.seen, overlooked e.1 e.2.payload = false) := by
  cases found : actorOf r id with
  | none =>
    have idle : Idle (({ registry := r, executor := () } : Run Unit).registry.get_state id) :=
      .inr (.inr (unknown_state proper found))
    have nothing (k : Installed) : process_tasks k.executor 1 { registry := r, executor := () } tasks =
        some { registry := r, executor := () } := by
      rw [tasks_singles,flat_singles same]
      exact tasks_idle idle _
    exact ⟨1,_,nothing .success,fun _ _ => nofun,fun _ => ⟨_,fun k => ⟨1,_,nothing k,rfl⟩⟩⟩
  | some a =>
    obtain ⟨n,x',served⟩ := success_ends id proper.fits (x := sceneOf { registry := r, executor := () } a)
      (proper.resting a found) (tasks.flatMap Task.messages)
    obtain ⟨fuel,ended⟩ := (tasks_iff found same .success _).mpr ⟨n,x',served,rfl⟩
    have together := passes_together rfl served
    refine ⟨fuel,_,ended,?_,?_⟩
    · rintro ⟨states,passes⟩ e member
      obtain ⟨m,y',absent,left⟩ := (passes_iff found same .absent states).mp (passes .absent)
      obtain ⟨m',z',again,right⟩ := (passes_iff found same .success states).mp (passes .success)
      have one := (serve_le (Nat.le_max_left n m') served).symm.trans (serve_le (Nat.le_max_right n m') again)
      cases one
      exact (same_effect_iff e).mp ((together .absent).mp ⟨m,y',absent,left.trans right.symm⟩ e member)
    · intro obeyed
      refine ⟨visited x',fun k => (passes_iff found same k _).mpr ((together k).mpr fun e member => ?_)⟩
      have absent := (same_effect_iff e).mpr (obeyed e member)
      cases k with
      | absent => exact absent
      | success => exact fun _ => rfl
      | notReady => exact absent

/-- A suspended actor that is paused again, resumed and stopped goes through the
    same states. -/
theorem lifecycle_same_iff_stopped :
    let message (payload : MessagePayload) : Message := ⟨none,payload,.Normal,0⟩
    let tasks := [message (.Signal .Pause),message (.Signal .Resume),message .Stop].map (single ⟨1⟩)
    let a : Actor := ⟨.Suspended,0,filled { capacity := 8 } ⟨1⟩ []⟩
    ∃ states, ∀ installed : Installed, Passes installed (lone ⟨1⟩ a) ⟨1⟩ tasks states := by
  intro message tasks a
  have fits : ({ capacity := 8 } : MailboxConfig).capacity < 2 ^ 64 := by decide
  have proper : Proper { capacity := 8 } (lone ⟨1⟩ a) ⟨1⟩ := proper_lone fits ⟨1⟩ (resting_filled fits ⟨1⟩ _) (by decide)
  obtain ⟨fuel,run,ended,same⟩ := lifecycle_same_iff proper tasks (by decide)
  refine same.mpr ?_
  have once : (process_tasks Installed.success.executor 3 { registry := lone ⟨1⟩ a, executor := () } tasks).map
      (fun run => run.seen.all (fun e => !overlooked e.1 e.2.payload)) = some true := by decide +kernel
  obtain ⟨run',ended',obeyed⟩ := Option.map_eq_some_iff.mp once
  obtain rfl : run = run' := Option.some.inj
    ((tasks_le (Nat.le_max_left fuel 3) ended).symm.trans (tasks_le (Nat.le_max_right fuel 3) ended'))
  simpa using obeyed

/-- The states of a sequence of messages that was run. -/
theorem passes_unique {installed : Installed} {r : ActorRegistry} {id : ActorId} (messages : List Message) (fuel : Nat)
    {states states' : List ActorState} (passes : Passes installed r id (messages.map (single id)) states)
    (runs : (process_tasks installed.executor fuel { registry := r, executor := () } (messages.map (single id))).map
      (passed · id) = some states') : states = states' := by
  obtain ⟨fuel',run,ended,rfl⟩ := passes
  obtain ⟨run',ended',rfl⟩ := Option.map_eq_some_iff.mp runs
  have one := (tasks_le (Nat.le_max_left fuel fuel') ended').symm.trans (tasks_le (Nat.le_max_right fuel fuel') ended)
  cases one
  rfl

/-- A running actor that is paused: without an executor it is suspended, with one
    it goes on running. -/
theorem pause_overlooked :
    let pause : Message := ⟨none,.Signal .Pause,.Normal,0⟩
    let a : Actor := ⟨.Running,0,filled { capacity := 8 } ⟨1⟩ [pause]⟩
    ¬∃ states, ∀ installed : Installed, Passes installed (lone ⟨1⟩ a) ⟨1⟩ [single ⟨1⟩ pause] states := by
  intro pause a
  rintro ⟨states,passes⟩
  have absent : states = [.Running,.Suspended] :=
    passes_unique [pause] 1 (passes .absent) (by decide +kernel)
  have success : states = [.Running,.Running] :=
    passes_unique [pause] 1 (passes .success) (by decide +kernel)
  simp [absent] at success

end ActorKit.Executors
