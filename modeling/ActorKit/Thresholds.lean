import ActorKit.Hysteresis
import ActorKit.Lib.Rounding
import Mathlib.Tactic.NormNum

/-!
# The threshold of a mailbox

`mailbox.rs` keeps a threshold as a part of the capacity and computes the count
in `f32`. Above `2 ^ 24` not every capacity is an `f32`: where it is rounded up,
a threshold of one lies beyond the capacity, and a full mailbox is not
backpressured.
-/

namespace ActorKit.mailbox
open ActorKit.Rounding

/-- Calculate the backpressure threshold in message count. -/
def backpressure_count (capacity : Nat) (backpressure_threshold : Value) : Nat :=
  f32.share 64 capacity backpressure_threshold

/-- The threshold of `MailboxConfig::default`: the `f32` nearest to 0.8. -/
def default_threshold : Value := f32.value (4 / 5)

/-- A config with the threshold of the source. -/
def MailboxConfig.with_threshold (capacity : Nat) (priority_queue : Bool) (backpressure_threshold : Value) : MailboxConfig :=
  { capacity, priority_queue, backpressure_count := mailbox.backpressure_count capacity backpressure_threshold }

/-- Create a new mailbox config with the given capacity. -/
def MailboxConfig.new (capacity : Nat) : MailboxConfig := .with_threshold capacity true default_threshold

end ActorKit.mailbox

namespace ActorKit.Thresholds
open ActorKit.mailbox ActorKit.MailboxAccounting ActorKit.MailboxCalls ActorKit.MailboxFifo ActorKit.PriorityFifo
  ActorKit.Hysteresis ActorKit.Rounding

/-- A mailbox that has no room left is backpressured, after every sequence of
    calls. -/
def FullRaises (config : MailboxConfig) : Prop :=
  ∀ actor_id ops, (contents (after actor_id config ops)).length = config.capacity →
    (after actor_id config ops).backpressure = true

/-! ## Counts -/

section
variable {config : MailboxConfig} (fits : config.capacity < 2 ^ 64)
include fits

/-- A count beyond the capacity is never reached. -/
theorem never_raised (beyond : config.capacity < config.backpressure_count) (actor_id : ActorId)
    (ops : List (Operation Message)) : (after actor_id config ops).backpressure = false := by
  have keeps : ∀ mb op, Sound config mb ∧ mb.backpressure = false →
      Sound config (call mb op).1 ∧ (call mb op).1.backpressure = false := by
    rintro mb op ⟨sound,low⟩
    cases op with
    | send message =>
      rcases try_send_stores fits sound message with ⟨-,refused⟩ | ⟨mb',sent,kept,-⟩
      · simp only [call,refused]
        exact ⟨sound,low⟩
      · simp only [call,sent]
        refine ⟨kept,?_⟩
        have delivered : ∃ mb₀ : Mailbox, mb₀.backpressure = mb.backpressure ∧ mb₀.config = mb.config ∧
            mb₀.deliver message = (mb',.ok ()) := by
          unfold Mailbox.try_send Mailbox.try_acquire at sent
          split at sent
          · cases sent
          · next acquired found =>
            split at found <;> cases found
            exact ⟨{ mb with permits := mb.permits - 1 },rfl,rfl,sent⟩
        obtain ⟨mb₀,flag,same,delivered⟩ := delivered
        rw [deliver_flag delivered,flag,low,same,sound.sameConfig,Bool.false_or,decide_eq_false_iff_not]
        have size := kept.size
        have permits := kept.permits
        omega
    | receive =>
      by_cases none : contents mb = []
      · simp only [call,try_recv_empty none]
        exact ⟨sound,low⟩
      · obtain ⟨mb',message,taken,kept,-⟩ := try_recv_takes fits sound none
        simp only [call,taken]
        exact ⟨kept,by rw [try_recv_flag taken,low,Bool.false_and]⟩
    | clear => exact ⟨(clear_sound fits sound).1,rfl⟩
  exact (Machine.run_invariant keeps ⟨sound_new actor_id config,rfl⟩ ops).2

/-- As many sends as there is room for fill a mailbox. -/
theorem filled (message : Message) {mb : Mailbox} (sound : Sound config mb) (n : Nat)
    (room : (contents mb).length + n ≤ config.capacity) :
    (contents (Machine.run call mb (List.replicate n (.send message))).1).length = (contents mb).length + n := by
  induction n generalizing mb with
  | zero => simp
  | succ n ih =>
    have length := contents_length mb
    have permits := sound.permits
    obtain ⟨mb',sent,kept,stored⟩ := (try_send_stores fits sound message).resolve_left (fun full => by omega)
    have more := stored.length_eq
    rw [List.length_cons] at more
    simp only [List.replicate_succ,Machine.run_cons,call,sent]
    rw [ih kept (by omega)]
    omega

theorem full_raises_iff (positive : 1 ≤ config.capacity) :
    FullRaises config ↔ config.backpressure_count ≤ config.capacity := by
  constructor
  · intro raises
    by_contra beyond
    let message : Message := { sender := none, payload := .Empty, priority := .Normal }
    have full := filled fits message (sound_new ⟨0⟩ config) config.capacity (by simp [contents,Mailbox.new])
    rw [show (contents (.new ⟨0⟩ config)).length = 0 from rfl,Nat.zero_add] at full
    have set := raises ⟨0⟩ (List.replicate config.capacity (.send message)) full
    rw [never_raised fits (by omega)] at set
    cases set
  · intro bounded actor_id ops full
    obtain ⟨sound,tracks⟩ := after_tracks fits actor_id ops
    exact tracks.raised (by rw [sound.sameConfig]; omega)

end

/-! ## Thresholds -/

/-- With every threshold between zero and one a full mailbox is backpressured,
    exactly when the capacity is not rounded up as an `f32`. -/
theorem thresholds_reached_iff (capacity : Nat) (fits : capacity < 2 ^ 64) (positive : 1 ≤ capacity) :
    (∀ t : ℚ, 0 ≤ t → t ≤ 1 → ∀ priority_queue, FullRaises (.with_threshold capacity priority_queue (.finite t))) ↔
      min ⌊f32.round capacity⌋.toNat (2 ^ 64 - 1) ≤ capacity := by
  have fits' : ∀ t priority_queue, (MailboxConfig.with_threshold capacity priority_queue t).capacity < 2 ^ 64 := fun _ _ => fits
  constructor
  · intro reached
    have whole := (full_raises_iff (fits' (.finite 1) true) positive).mp (reached 1 zero_le_one le_rfl true)
    rw [← share_one f32_holds fits]
    exact whole
  · intro exact_ t nonneg small priority_queue
    refine (full_raises_iff (fits' (.finite t) priority_queue) positive).mpr ?_
    have less : f32.share 64 capacity (.finite t) ≤ f32.share 64 capacity (.finite 1) :=
      share_mono_right f32_holds fits nonneg small
    rw [share_one f32_holds fits] at less
    exact less.trans exact_

/-- Ten thousand is an `f32`. -/
theorem thresholds_reached_default :
    FullRaises (.with_threshold 10000 true (.finite (3 / 4))) := by
  have whole : f32.round ((10000 : ℕ) : ℚ) = 10000 := round_of_has (has_natCast (by decide) (by decide))
  refine (thresholds_reached_iff 10000 (by decide) (by decide)).mpr ?_ (3 / 4) (by norm_num) (by norm_num) true
  rw [whole]
  decide

/-- Sixteen million and some is not. -/
example : min ⌊f32.round ((2 ^ 24 + 3 : ℕ) : ℚ)⌋.toNat (2 ^ 64 - 1) = 2 ^ 24 + 4 := by decide +kernel

theorem default_threshold_finite : default_threshold = .finite (13421773 / 2 ^ 24) := by decide +kernel

/-- Four fifths of a capacity are rounded to something below it. -/
theorem default_count_le (capacity : Nat) (fits : capacity < 2 ^ 64) (positive : 1 ≤ capacity) :
    backpressure_count capacity default_threshold ≤ capacity := by
  rw [backpressure_count,default_threshold_finite,share_finite f32_holds fits (by norm_num)]
  have large : (1 : ℚ) ≤ capacity := by exact_mod_cast positive
  have least : (2 : ℚ) ^ (f32.least + f32.precision - 1) ≤ 1 / 2 := by
    rw [show f32.least + f32.precision - 1 = -126 by decide]
    norm_num
  have small : (2 : ℚ) ^ (-f32.precision : ℤ) ≤ 1 / 100 := by
    rw [show (-f32.precision : ℤ) = -24 by decide]
    norm_num
  have whole : f32.round (capacity : ℚ) ≤ capacity * (1 + 1 / 100) :=
    (round_le_mul (by linarith)).trans (mul_le_mul_of_nonneg_left (by linarith) (by linarith))
  have one : (1 : ℚ) ≤ f32.round capacity :=
    le_round zero_le_one large (by simpa using has_natCast (F := f32) (n := 1) (by decide) (by decide))
  have part : f32.round (f32.round capacity * (13421773 / 2 ^ 24)) ≤
      f32.round capacity * (13421773 / 2 ^ 24) * (1 + 1 / 100) :=
    (round_le_mul (by norm_num; linarith)).trans
      (mul_le_mul_of_nonneg_left (by linarith) (mul_nonneg (by linarith) (by norm_num)))
  have below : f32.round (f32.round capacity * (13421773 / 2 ^ 24)) ≤ capacity := by
    norm_num at part ⊢
    linarith
  have floor : ⌊f32.round (f32.round capacity * (13421773 / 2 ^ 24))⌋ ≤ (capacity : ℤ) := by
    exact_mod_cast (Int.floor_le _).trans below
  omega

/-- Four fifths of a capacity are two messages or more from a capacity of three
    on. -/
theorem default_count_two (capacity : Nat) (fits : capacity < 2 ^ 64) :
    2 ≤ backpressure_count capacity default_threshold ↔ 3 ≤ capacity := by
  have two : backpressure_count 2 default_threshold = 1 := by decide +kernel
  have three : backpressure_count 3 default_threshold = 2 := by decide +kernel
  unfold backpressure_count at two three ⊢
  rw [default_threshold_finite] at two three ⊢
  constructor
  · intro enough
    by_contra few
    have less := share_mono_left (m := 2) (t := 13421773 / 2 ^ 24) f32_holds fits (by decide) (by norm_num) (by omega)
    omega
  · intro enough
    have more := share_mono_left (n := 3) (t := 13421773 / 2 ^ 24) f32_holds (by decide) fits (by norm_num) enough
    omega

/-- A mailbox with the default threshold is backpressured when it is full, and is
    not when it is empty, after every sequence of calls, exactly from a capacity of
    three on. -/
theorem default_threshold_works_iff (capacity : Nat) (fits : capacity < 2 ^ 64) (positive : 1 ≤ capacity) :
    FullRaises (.new capacity) ∧ ((∀ actor_id ops, Releases (after actor_id (.new capacity) ops)) ↔ 3 ≤ capacity) := by
  have fits' : (MailboxConfig.new capacity).capacity < 2 ^ 64 := fits
  have count : (MailboxConfig.new capacity).backpressure_count = backpressure_count capacity default_threshold := rfl
  refine ⟨(full_raises_iff fits' positive).mpr (default_count_le capacity fits positive),?_⟩
  rw [← default_count_two capacity fits,← count]
  constructor
  · intro releases
    by_contra low
    obtain ⟨empty,latched⟩ := visit_latches fits' positive (by omega) ⟨0⟩
    rw [(releases ⟨0⟩ visit).empty empty] at latched
    cases latched
  · intro enough actor_id ops
    obtain ⟨sound,tracks⟩ := after_tracks fits' actor_id ops
    refine ⟨tracks,fun empty => ?_⟩
    by_contra set
    have half := tracks.held (by simpa using set)
    rw [sound.sameConfig,empty,List.length_nil] at half
    omega

theorem default_threshold_works_three : FullRaises (.new 3) ∧ Releases (after ⟨0⟩ (.new 3) visit) := by
  obtain ⟨raises,releases⟩ := default_threshold_works_iff 3 (by decide) (by decide)
  exact ⟨raises,releases.mpr le_rfl ⟨0⟩ visit⟩

/-- The capacity of the default config. -/
example : MailboxConfig.new 10000 = {} := by decide +kernel

end ActorKit.Thresholds
