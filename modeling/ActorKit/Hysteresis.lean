import ActorKit.MailboxFifo

/-!
# The backpressure flag

The flag is a latch between two marks: a send that stores the message number `B`
or a later one sets it, a receive that leaves fewer than `B / 2` resets it. The
lower mark of a threshold below two is zero, and no receive leaves less than
that.
-/

namespace ActorKit.Hysteresis
open ActorKit.mailbox ActorKit.MailboxAccounting ActorKit.MailboxCalls ActorKit.MailboxFifo ActorKit.PriorityFifo

/-- The mailbox of an actor after a sequence of calls. -/
def after (actor_id : ActorId) (config : MailboxConfig) (ops : List (Operation Message)) : Mailbox :=
  (Machine.run call (.new actor_id config) ops).1

/-- What the flag says about the stored messages. -/
structure Tracks (mb : Mailbox) : Prop where
  raised : max mb.config.backpressure_count 1 ≤ (contents mb).length → mb.backpressure = true
  held : mb.backpressure = true → mb.config.backpressure_count / 2 ≤ (contents mb).length

/-- The flag follows the stored messages, and an empty mailbox is not
    backpressured. -/
structure Releases (mb : Mailbox) : Prop extends Tracks mb where
  empty : contents mb = [] → mb.backpressure = false

/-! ## The flag after a call -/

theorem push_flag {mb mb' : Mailbox} {message : Message} (pushed : mb.push message = some mb') :
    mb'.config = mb.config ∧ mb'.backpressure = mb.backpressure ∧ mb'.size = mb.size := by
  rcases push_some pushed with ⟨-,rfl⟩ | rfl
  · exact ⟨rfl,rfl,rfl⟩
  · exact ⟨rfl,rfl,rfl⟩

theorem raise_flag (mb : Mailbox) : (mb.raise_backpressure mb.size).backpressure =
    (mb.backpressure || decide (mb.config.backpressure_count ≤ (mb.raise_backpressure mb.size).size)) := by
  unfold Mailbox.raise_backpressure
  split
  · next reached => simp [reached]
  · next below => simp [below]

theorem lower_flag (mb : Mailbox) : (mb.lower_backpressure mb.size).backpressure =
    (mb.backpressure && decide (mb.config.backpressure_count / 2 ≤ (mb.lower_backpressure mb.size).size)) := by
  unfold Mailbox.lower_backpressure
  split
  · next below => simp [Nat.not_le.mpr below]
  · next enough => simp [Nat.not_lt.mp enough]

theorem deliver_flag {mb mb' : Mailbox} {message : Message} (delivered : mb.deliver message = (mb',.ok ())) :
    mb'.backpressure = (mb.backpressure || decide (mb.config.backpressure_count ≤ mb'.size)) := by
  unfold Mailbox.deliver at delivered
  dsimp only at delivered
  split at delivered
  · cases delivered
  · next pushed found =>
    cases delivered
    obtain ⟨config,flag,size⟩ := push_flag found
    have raised := raise_flag pushed
    rw [config,flag,size] at raised
    exact raised

theorem settle_flag (mb : Mailbox) :
    mb.settle.backpressure = (mb.backpressure && decide (mb.config.backpressure_count / 2 ≤ mb.settle.size)) := by
  obtain ⟨actor_id,config,queue,size,permits,flag,critical⟩ := mb
  exact lower_flag ⟨actor_id,config,queue,fetch_sub size 1,permits + 1,flag,critical⟩

theorem try_recv_flag {mb mb' : Mailbox} {message : Message} (taken : mb.try_recv = (mb',some message)) :
    mb'.backpressure = (mb.backpressure && decide (mb.config.backpressure_count / 2 ≤ mb'.size)) := by
  unfold Mailbox.try_recv at taken
  split at taken
  · next popped found =>
    cases taken
    split at found
    · obtain ⟨rest,-,rfl⟩ := pop_critical_some found
      exact settle_flag _
    · cases found
  · split at taken
    · next popped found =>
      cases taken
      obtain ⟨rest,-,rfl⟩ := pop_queue_some found
      exact settle_flag _
    · cases taken

/-! ## Runs -/

section
variable {config : MailboxConfig} (fits : config.capacity < 2 ^ 64)
include fits

theorem try_send_tracks {mb : Mailbox} (sound : Sound config mb) (tracks : Tracks mb) (message : Message) :
    Tracks (mb.try_send message).1 := by
  have size := sound.size
  have permits := sound.permits
  have length := contents_length mb
  by_cases full : mb.permits = 0
  · have refused : mb.try_send message = (mb,.error (message,mb.full)) := by
      simp [Mailbox.try_send,Mailbox.try_acquire,full]
    rw [refused]
    exact tracks
  · obtain ⟨mb',delivered,kept,stored⟩ := deliver_stores fits sound message full
    have sent : mb.try_send message = (mb',.ok ()) := by
      simp [Mailbox.try_send,Mailbox.try_acquire,full,delivered]
    have flag := deliver_flag delivered
    dsimp only at flag
    have more := stored.length_eq
    have size' := kept.size
    have length' := contents_length mb'
    have same : mb'.config = mb.config := kept.sameConfig.trans sound.sameConfig.symm
    rw [sent]
    simp only [List.length_cons] at more
    constructor
    · intro reached
      rw [same,more] at reached
      rw [flag,Bool.or_eq_true,decide_eq_true_eq]
      omega
    · intro set
      rw [flag,Bool.or_eq_true,decide_eq_true_eq] at set
      rw [same,more]
      rcases set with before | reached
      · have := tracks.held before
        omega
      · omega

theorem try_recv_tracks {mb : Mailbox} (sound : Sound config mb) (tracks : Tracks mb) : Tracks mb.try_recv.1 := by
  have size := sound.size
  have permits := sound.permits
  have length := contents_length mb
  by_cases none : contents mb = []
  · rw [try_recv_empty none]
    exact tracks
  · obtain ⟨mb',message,taken,kept,stored⟩ := try_recv_takes fits sound none
    have flag := try_recv_flag taken
    have fewer : (contents mb).length = (contents mb').length + 1 := by rw [stored]; rfl
    have size' := kept.size
    have length' := contents_length mb'
    have same : mb'.config = mb.config := kept.sameConfig.trans sound.sameConfig.symm
    have left : mb.try_recv.1 = mb' := by rw [taken]
    rw [left]
    constructor
    · intro reached
      rw [same] at reached
      rw [flag,Bool.and_eq_true,decide_eq_true_eq]
      exact ⟨tracks.raised (by omega),by omega⟩
    · intro set
      rw [flag,Bool.and_eq_true,decide_eq_true_eq] at set
      rw [same]
      omega

theorem clear_tracks {mb : Mailbox} (sound : Sound config mb) : Tracks mb.clear := by
  have empty := (clear_sound fits sound).2
  have low : mb.clear.backpressure = false := rfl
  constructor
  · intro reached
    rw [empty,List.length_nil] at reached
    omega
  · intro set
    rw [low] at set
    cases set

/-- The flag follows the stored messages in every run, whatever the threshold. -/
theorem after_tracks (actor_id : ActorId) (ops : List (Operation Message)) :
    Sound config (after actor_id config ops) ∧ Tracks (after actor_id config ops) := by
  have keeps : ∀ mb op, Sound config mb ∧ Tracks mb → Sound config (call mb op).1 ∧ Tracks (call mb op).1 := by
    rintro mb op ⟨sound,tracks⟩
    cases op with
    | send message =>
      have same : (call mb (.send message)).1 = (mb.try_send message).1 := by
        unfold call
        dsimp only
        split <;> next sent => rw [sent]
      rw [same]
      exact ⟨try_send_sound fits sound message,try_send_tracks fits sound tracks message⟩
    | receive => exact ⟨try_recv_sound fits sound,try_recv_tracks fits sound tracks⟩
    | clear => exact ⟨(clear_sound fits sound).1,clear_tracks fits sound⟩
  refine Machine.run_invariant keeps ⟨sound_new actor_id config,⟨fun reached => ?_,fun set => ?_⟩⟩ ops
  · have nothing : (contents (.new actor_id config)).length = 0 := rfl
    omega
  · cases set

end

/-- A message that comes and goes. -/
def visit : List (Operation Message) := [.send { sender := none, payload := .Empty, priority := .Normal },.receive]

/-- A threshold below two is latched for good by the first message. -/
theorem visit_latches {config : MailboxConfig} (fits : config.capacity < 2 ^ 64) (positive : 1 ≤ config.capacity)
    (low : config.backpressure_count < 2) (actor_id : ActorId) :
    contents (after actor_id config visit) = [] ∧ (after actor_id config visit).backpressure = true := by
  have new := sound_new actor_id config
  obtain ⟨mb,sent,kept,stored⟩ := (try_send_stores fits new
    { sender := none, payload := .Empty, priority := .Normal }).resolve_left (fun full => by
      have none : config.capacity = 0 := full.1
      omega)
  have one : (contents mb).length = 1 := stored.length_eq
  obtain ⟨mb',message,taken,kept',left⟩ := try_recv_takes fits kept (by
    intro empty
    rw [empty] at one
    cases one)
  have last : after actor_id config visit = mb' := by
    simp only [after,visit,Machine.run_cons,Machine.run_nil,call,sent,taken]
  have set : mb.backpressure = true := by
    have tracks := try_send_tracks fits new (after_tracks fits actor_id []).2
      { sender := none, payload := .Empty, priority := .Normal }
    rw [sent] at tracks
    exact tracks.raised (by rw [kept.sameConfig]; show _ ≤ (contents mb).length; omega)
  rw [last]
  constructor
  · rw [left,List.length_cons] at one
    exact List.length_eq_zero_iff.mp (by omega)
  · have half : config.backpressure_count / 2 = 0 := by omega
    rw [try_recv_flag taken,set,kept.sameConfig,half]
    simp only [Nat.zero_le,decide_true,Bool.and_self]

/-- The flag is set while the threshold is reached, is set only from half of it
    on, and is not set on an empty mailbox, after every sequence of calls, exactly
    when the threshold is at least two. -/
theorem backpressure_releases_iff (config : MailboxConfig) (fits : config.capacity < 2 ^ 64)
    (positive : 1 ≤ config.capacity) (bounded : config.backpressure_count ≤ config.capacity) :
    (∀ actor_id ops, Releases (after actor_id config ops)) ↔ 2 ≤ config.backpressure_count := by
  constructor
  · intro releases
    by_contra low
    obtain ⟨empty,latched⟩ := visit_latches fits positive (by omega) ⟨0⟩
    rw [(releases ⟨0⟩ visit).empty empty] at latched
    cases latched
  · intro enough actor_id ops
    obtain ⟨sound,tracks⟩ := after_tracks fits actor_id ops
    refine ⟨tracks,fun empty => ?_⟩
    by_contra set
    have half := tracks.held (by simpa using set)
    rw [sound.sameConfig,empty,List.length_nil] at half
    omega

/-- Eight messages come and five of them go. -/
def crowd : List (Operation Message) :=
  List.replicate 8 (.send { sender := none, payload := .Custom [1], priority := .Normal }) ++ List.replicate 5 .receive

/-- The default share of a mailbox for ten messages. -/
theorem backpressure_releases_ten :
    (after ⟨0⟩ { capacity := 10, backpressure_count := 8 } (crowd.take 8)).backpressure = true ∧
    (after ⟨0⟩ { capacity := 10, backpressure_count := 8 } crowd).backpressure = false ∧
    Releases (after ⟨0⟩ { capacity := 10, backpressure_count := 8 } crowd) := by
  have releases := (backpressure_releases_iff { capacity := 10, backpressure_count := 8 } (by decide) (by decide)
    (by decide)).mpr (by decide)
  exact ⟨by decide,by decide,releases ⟨0⟩ crowd⟩

/-- The default share of a mailbox for one message is zero. Once a message has
    come and gone, the mailbox is empty and backpressured. -/
theorem empty_backpressured : ¬Releases (after ⟨0⟩ { capacity := 1, backpressure_count := 0 } visit) := by
  intro releases
  have set : (after ⟨0⟩ { capacity := 1, backpressure_count := 0 } visit).backpressure = true := by decide
  rw [releases.empty (by decide)] at set
  cases set

end ActorKit.Hysteresis
