import Mathlib.Data.Nat.ModEq
import ActorKit.Sim.Drain

/-!
# The counters and the trace

Eight of the counters of a simulation are the tallies of its trace: whoever has the
trace, and so whoever trusts its hash, has them. The other five count what leaves
no entry, or not one for each time.
-/

namespace ActorKit.Sim.Tallies
open ActorKit.sim ActorKit.Program ActorKit.Sim.Audits

/-- The counters that the trace accounts for. -/
inductive Counter where
  | injected
  | rejected
  | processed
  | system_processed
  | crashed
  | restarted
  | escalated
  | dropped
deriving DecidableEq, Repr

def Counter.read (stats : SimStats) : Counter → Nat
  | .injected => stats.injected
  | .rejected => stats.rejected
  | .processed => stats.processed
  | .system_processed => stats.system_processed
  | .crashed => stats.crashed
  | .restarted => stats.restarted
  | .escalated => stats.escalated
  | .dropped => stats.dropped

/-- What an entry of the trace adds to a counter. -/
def worth : TraceOp → Counter → Nat
  | .Send .., .injected | .Reject .., .rejected | .Process .., .processed | .ProcessSystem _, .system_processed
  | .Crash .., .crashed | .Restart _ true, .restarted | .Kill .., .escalated => 1
  | .BatchSend _ len _, .injected => len.toNat
  | .Crash _ dropped, .dropped | .Kill _ dropped, .dropped => dropped.toNat
  | _, _ => 0

def tally (trace : List TraceOp) (counter : Counter) : Nat := (trace.map (worth · counter)).sum

/-- Each counter is its tally, up to what has been counted and not yet traced, in
    the 64 bits that it has. -/
def Owed (debt : Counter → Nat) (s : Sim) : Prop :=
  ∀ counter : Counter, counter.read s.stats ≡ tally s.trace counter + debt counter [MOD 2 ^ 64]

/-- Nothing is owed. -/
abbrev Tallied : Sim → Prop := Owed (fun _ => 0)

/-- A debt of one counter. -/
def only (counter : Counter) (n : Nat) : Counter → Nat := fun other => if other = counter then n else 0

theorem tally_append (trace more : List TraceOp) (counter : Counter) :
    tally (trace ++ more) counter = tally trace counter + tally more counter := by
  simp [tally]

theorem truncated (n : Nat) : n ≡ (UInt64.ofNat n).toNat [MOD 2 ^ 64] := by
  rw [UInt64.toNat_ofNat']
  exact (Nat.mod_modEq n _).symm

theorem tally_one (op : TraceOp) (counter : Counter) : tally [op] counter = worth op counter := by
  simp [tally]

variable {debt debt' : Counter → Nat}

/-- What is counted and traced together pays the debts. -/
theorem Owed.noted {s s' : Sim} (owed : Owed debt s) (ops : List TraceOp) (more : Counter → Nat)
    (trace : s'.trace = s.trace ++ ops)
    (stats : ∀ counter : Counter, counter.read s'.stats = counter.read s.stats + more counter)
    (pays : ∀ counter, debt counter + more counter ≡ tally ops counter + debt' counter [MOD 2 ^ 64]) :
    Owed debt' s' := by
  intro counter
  calc counter.read s'.stats = counter.read s.stats + more counter := stats counter
    _ ≡ tally s.trace counter + debt counter + more counter [MOD 2 ^ 64] := (owed counter).add_right _
    _ = tally s.trace counter + (debt counter + more counter) := Nat.add_assoc ..
    _ ≡ tally s.trace counter + (tally ops counter + debt' counter) [MOD 2 ^ 64] := (pays counter).add_left _
    _ = tally s'.trace counter + debt' counter := by rw [trace,tally_append,Nat.add_assoc]

/-- An entry that no counter is read from. -/
theorem Owed.silent {s s' : Sim} (owed : Owed debt s) (op : TraceOp) (trace : s'.trace = s.trace ++ [op])
    (stats : ∀ counter : Counter, counter.read s'.stats = counter.read s.stats)
    (free : ∀ counter, worth op counter = 0) : Owed debt s' :=
  owed.noted [op] (fun _ => 0) trace stats (fun counter => by rw [tally_one,free,Nat.add_zero,Nat.zero_add])

/-- What the counters and the trace are. -/
def books (s : Sim) : SimStats × List TraceOp := (s.stats,s.trace)

theorem Owed.same {s s' : Sim} (owed : Owed debt s) (same : books s' = books s) : Owed debt s' := by
  obtain ⟨stats,trace⟩ := Prod.mk.injEq .. ▸ same
  intro counter
  rw [stats,trace]
  exact owed counter

theorem owed_keeps {α : Type} {p : SimM α} (keeps : Keeps books p) : Ensures (Owed debt) p (fun _ => Owed debt) := by
  refine .at_state (fun s₀ owed => ?_)
  exact (keeps (books s₀)).weaken (fun s here => by rw [here]) (fun _ _ same => owed.same same)

theorem get_owed {α : Type} {P : Sim → Prop} {k : Sim → SimM α} {Q : α → Sim → Prop}
    (rest : ∀ s₀, P s₀ → Ensures P (k s₀) Q) : Ensures P (get >>= k) Q :=
  .get_bind (fun s₀ before => (rest s₀ before).weaken (fun _ here => here ▸ before) (fun _ _ after => after))

/-! ## Deliveries -/

theorem tallied_reject (ord : Nat) (reason : RejectReason) (mids : List Nat) {s : Sim} (tallied : Tallied s) :
    Tallied (s.reject ord reason mids) := by
  unfold Sim.reject
  induction mids generalizing s with
  | nil => exact tallied
  | cons mid mids ih =>
    refine ih (tallied.noted [.Reject (.ofNat mid) (.ofNat ord) reason] (only .rejected 1) rfl ?_ ?_)
    · intro counter
      cases counter <;> rfl
    · intro counter
      cases counter <;> rfl

theorem tallied_park (ord : Nat) (msgs : List Message) (mids : List Nat) (was_blocked : Bool) {s : Sim}
    (tallied : Tallied s) : Tallied (s.park ord msgs mids was_blocked) := by
  have sameStats (counter : Counter) :
      counter.read (s.park ord msgs mids was_blocked).stats = counter.read s.stats := by
    cases counter <;> rfl
  cases mids with
  | nil => exact tallied.noted [] (fun _ => 0) (by simp [Sim.park]) sameStats (fun _ => rfl)
  | cons first mids =>
    cases was_blocked with
    | true => exact tallied.noted [] (fun _ => 0) (by simp [Sim.park]) sameStats (fun _ => rfl)
    | false =>
      refine tallied.silent (.Blocked (.ofNat first) (.ofNat (first :: mids).length) (.ofNat ord)) rfl sameStats
        (fun counter => ?_)
      cases counter <;> rfl

theorem tallied_deliver (ord : Nat) (id : ActorId) (mailbox : mailbox.Mailbox) (task : queue.Task) (mids : List Nat)
    (was_blocked : Bool) {s : Sim} (tallied : Tallied s) : Tallied (s.deliver ord id mailbox task mids was_blocked) := by
  have sameStats (counter : Counter) :
      counter.read (s.deliver ord id mailbox task mids was_blocked).stats = counter.read s.stats := by
    cases counter <;> rfl
  cases mids with
  | nil => exact tallied.noted [] (fun _ => 0) (by simp [Sim.deliver]) sameStats (fun _ => rfl)
  | cons first mids =>
    refine tallied.silent (.Deliver (.ofNat first) (.ofNat (first :: mids).length) (.ofNat ord)) rfl sameStats
      (fun counter => ?_)
    cases counter <;> rfl

theorem attempt_delivery_tallied (ord : Nat) (msgs : List Message) (mids : List Nat) (was_blocked : Bool) :
    Ensures Tallied (attempt_delivery ord msgs mids was_blocked) (fun _ => Tallied) := by
  refine get_owed (fun s _ => .lift_bind (fun id _ => ?_))
  split
  · exact .modify (fun _ => tallied_reject ord .DeadTarget mids)
  · exact .modify (fun _ => tallied_reject ord .DeadTarget mids)
  · exact .modify (fun _ => tallied_reject ord .DeadTarget mids)
  all_goals
    refine .lift_bind (fun mailbox _ => ?_)
    split
    · exact .modify (fun _ => tallied_park ord msgs mids was_blocked)
    · exact .lift_bind (fun mailbox _ => .lift_bind (fun message _ => .lift_bind (fun _ _ =>
        .modify (fun _ => tallied_deliver ord id mailbox _ mids was_blocked))))

theorem deliver_or_block_tallied (ord : Nat) (msgs : List Message) (mids : List Nat) (delay : Nat) :
    Ensures Tallied (deliver_or_block ord msgs mids delay) (fun _ => Tallied) := by
  unfold deliver_or_block
  split
  · exact get_owed (fun _ _ => .lift_bind (fun _ _ => .modify (fun _ tallied => tallied.same rfl)))
  · exact attempt_delivery_tallied ord msgs mids false

theorem spawn_actor_tallied (ord : Nat) : Ensures Tallied (spawn_actor ord) (fun _ => Tallied) := by
  refine .bind (fun _ => Tallied) (.modifyGet (fun s tallied => tallied.same rfl)) (fun _ => .lift_bind (fun _ _ => ?_))
  refine .bind (fun _ => Tallied) (.modifyGet (fun s tallied => tallied.same rfl)) (fun _ => .lift_bind (fun _ _ => ?_))
  refine .bind (fun _ => Tallied) (.modify (fun s tallied => ?_))
    (fun _ => deliver_or_block_tallied ord [start_message] [] 0)
  exact tallied.silent (.Spawn (.ofNat ord)) rfl (fun _ => rfl) (fun counter => by cases counter <;> rfl)

theorem with_config_tallied : Ensures Tallied with_config (fun _ => Tallied) :=
  get_owed (fun s _ => Meets.forM (fun _ => Tallied) (fun ord _ => spawn_actor_tallied ord) (List.range s.config.actors.toNat))

/-! ## Workload -/

theorem draw_books {α : Type} (f : SimRng → Except Failure (α × SimRng)) : Keeps books (draw f) :=
  .get_bind (fun _ => .lift_bind (fun _ => .bind (.modify (fun _ => rfl)) (fun _ => .pure _)))

theorem roll_if_books (condition : Bool) (p : F64) : Keeps books (roll_if condition p) := .ite (draw_books _) (.pure _)

theorem draw_delay_books (faults : FaultConfig) : Keeps books (draw_delay faults) :=
  .bind (draw_books _) (fun _ => .ite (draw_books _) (.pure _))

theorem draw_len_tallied (remaining : Nat) :
    Ensures Tallied (draw_len remaining) (fun len s => Tallied s ∧ 1 ≤ len) := by
  refine .bind _ (owed_keeps (roll_if_books _ _)) (fun batch => ?_)
  cases batch with
  | false => exact .pure 1 (fun s tallied => ⟨tallied,Nat.le_refl _⟩)
  | true =>
    refine get_owed (fun s₀ _ => .lift_bind (fun result drawn => ?_))
    refine .bind (fun _ => Tallied) (.modify (fun s tallied => tallied.same rfl))
      (fun _ => .pure _ (fun s tallied => ⟨tallied,?_⟩))
    obtain ⟨len,rng⟩ := result
    have low := le_range drawn
    simp only
    omega

theorem tallied_announce (len target : Nat) (some_ : 1 ≤ len) {s : Sim} (tallied : Tallied s) :
    Tallied (s.announce len target) := by
  have counted (counter : Counter) :
      counter.read (s.announce len target).stats = counter.read s.stats + only .injected len counter := by
    cases counter <;> rfl
  by_cases batch : 1 < len
  · refine tallied.noted [.BatchSend (.ofNat s.next_mid) (.ofNat len) (.ofNat target)] (only .injected len)
      (by simp [Sim.announce,batch]) counted (fun counter => ?_)
    cases counter with
    | injected =>
      show 0 + len ≡ tally [.BatchSend _ (.ofNat len) _] .injected + 0 [MOD 2 ^ 64]
      rw [tally_one,Nat.zero_add,Nat.add_zero]
      exact truncated len
    | _ => rfl
  · obtain rfl : len = 1 := by omega
    refine tallied.noted [.Send (.ofNat s.next_mid) (.ofNat target)] (only .injected 1) (by simp [Sim.announce]) counted
      (fun counter => ?_)
    cases counter <;> rfl

theorem inject_one_tallied : Ensures Tallied inject_one (fun _ => Tallied) := by
  refine get_owed (fun s₀ _ => .bind _ (owed_keeps (draw_books _)) (fun target => .lift_bind (fun remaining _ => ?_)))
  refine .bind _ (draw_len_tallied remaining) (fun len => .at_state (fun s₁ before => ?_))
  obtain ⟨tallied,some_⟩ := before
  refine Ensures.weaken (P := Tallied) ?_ (fun s here => here ▸ tallied) (fun _ _ after => after)
  refine .bind _ (owed_keeps (draw_books _)) (fun urgent => ?_)
  refine .bind (fun _ => Tallied) (.modify (fun s => tallied_announce len target some_)) (fun _ => ?_)
  refine .bind _ (owed_keeps (draw_books _)) (fun rejected => ?_)
  split
  · exact .modify (fun _ => tallied_reject _ .Fault _)
  · refine .bind _ (owed_keeps (draw_delay_books _)) (fun delay => .bind _ (owed_keeps (draw_books _)) (fun duplicate => ?_))
    refine .bind _ (deliver_or_block_tallied _ _ _ _) (fun _ => ?_)
    split
    · refine .bind (fun _ => Tallied) (.modify (fun s tallied => ?_))
        (fun _ => .lift_bind (fun _ _ => deliver_or_block_tallied _ _ _ _))
      exact tallied.noted [] (fun _ => 0) (by simp) (fun counter => by cases counter <;> rfl) (fun _ => rfl)
    · exact .pure _ (fun _ tallied => tallied)

theorem inject_some_tallied (attempts : Nat) : Ensures Tallied (inject_some attempts) (fun _ => Tallied) := by
  induction attempts with
  | zero => exact .pure _ (fun _ tallied => tallied)
  | succ attempts ih =>
    refine get_owed (fun s _ => ?_)
    split
    · exact .pure _ (fun _ tallied => tallied)
    · exact .bind _ inject_one_tallied (fun _ => ih)

theorem inject_workload_tallied : Ensures Tallied inject_workload (fun _ => Tallied) := by
  refine get_owed (fun s _ => ?_)
  split
  · exact .pure _ (fun _ tallied => tallied)
  · exact .bind _ (owed_keeps (roll_if_books _ _)) (fun _ => .lift_bind (fun _ _ => inject_some_tallied _))

theorem deliver_loop_tallied (turns : Nat) : Ensures Tallied (deliver_loop turns) (fun _ => Tallied) := by
  induction turns with
  | zero =>
    refine get_owed (fun s _ => ?_)
    split
    · exact .pure _ (fun _ tallied => tallied)
    · exact .throw _
  | succ turns ih =>
    refine get_owed (fun s _ => ?_)
    split
    · exact .pure _ (fun _ tallied => tallied)
    · refine .bind (fun _ => Tallied) (.modify (fun s tallied => ?_))
        (fun _ => .bind _ (attempt_delivery_tallied _ _ _ _) (fun _ => ih))
      exact tallied.noted [] (fun _ => 0) (by simp) (fun counter => by cases counter <;> rfl) (fun _ => rfl)

theorem retry_loop_tallied (attempts : Nat) : Ensures Tallied (retry_loop attempts) (fun _ => Tallied) := by
  induction attempts with
  | zero => exact .pure _ (fun _ tallied => tallied)
  | succ attempts ih =>
    refine get_owed (fun s _ => .lift_bind (fun payload _ => ?_))
    exact .bind (fun _ => Tallied) (.modify (fun s tallied => tallied.same rfl))
      (fun _ => .bind _ (attempt_delivery_tallied _ _ _ _) (fun _ => ih))

/-! ## Processing -/

/-- A lost message is no entry of the books. -/
theorem lose_unprocessed_books (mid : Nat) : Keeps books (lose_unprocessed mid) :=
  .get_bind (fun _ => .lift_bind (fun _ => .ite (.modify (fun _ => rfl)) (.pure _)))

/-- A crash is counted before it is traced. -/
theorem settle_crash_pays (ord : Nat) (task_mids : List Nat) :
    Ensures (Owed (only .crashed 1)) (settle_crash ord task_mids) (fun _ => Tallied) := by
  refine get_owed (fun s _ => .lift_bind (fun id _ => .lift_bind (fun led _ => ?_)))
  let mailbox_len := ((s.registry.get_mailbox id).map (·.len)).getD 0
  let destroyed := led.delivered - led.consumed - led.dropped - mailbox_len
  let debt : Counter → Nat := fun counter => only .crashed 1 counter + only .dropped destroyed counter
  refine .bind (fun _ => Owed debt) (.modify (fun s owed => ?_)) (fun _ => ?_)
  · refine owed.noted [] (only .dropped destroyed) (by simp [Sim.destroy]) (fun counter => ?_) (fun counter => ?_)
    · cases counter <;> rfl
    · show _ ≡ 0 + debt counter [MOD 2 ^ 64]
      rw [Nat.zero_add]
  refine .bind _ (owed_keeps (.forM _ lose_unprocessed_books)) (fun _ => .modify (fun s owed => ?_))
  refine owed.noted [.Crash (.ofNat ord) (.ofNat destroyed)] (fun _ => 0) rfl (fun _ => rfl) (fun counter => ?_)
  cases counter with
  | dropped =>
    show 0 + destroyed + 0 ≡ tally [.Crash _ (.ofNat destroyed)] .dropped + 0 [MOD 2 ^ 64]
    rw [tally_one,Nat.zero_add,Nat.add_zero,Nat.add_zero]
    exact truncated destroyed
  | _ => rfl

theorem respawn_tallied (ord : Nat) : Ensures Tallied (respawn ord) (fun _ => Tallied) := by
  refine get_owed (fun s _ => .lift_bind (fun led _ =>
    .bind (fun _ => Tallied) (.modify (fun s tallied => tallied.same rfl)) (fun _ => ?_)))
  refine .lift_bind (fun old _ => .bind (fun _ => Tallied) (.modify (fun s tallied => tallied.same rfl)) (fun _ => ?_))
  refine .bind (fun _ => Tallied) (.modifyGet (fun s tallied => tallied.same rfl)) (fun _ => .lift_bind (fun _ _ => ?_))
  refine .bind (fun _ => Tallied) (.modify (fun s tallied => ?_))
    (fun _ => deliver_or_block_tallied ord [start_message] [] 0)
  exact tallied.silent (.Spawn (.ofNat ord)) rfl (fun _ => rfl) (fun counter => by cases counter <;> rfl)

theorem kill_tallied (ord : Nat) : Ensures Tallied (kill ord) (fun _ => Tallied) := by
  refine get_owed (fun s _ => .lift_bind (fun id _ => .lift_bind (fun _ _ => .modify (fun s' tallied => ?_))))
  let dropped := ((s.registry.get_mailbox id).map (·.len)).getD 0
  refine tallied.noted [.Kill (.ofNat ord) (.ofNat dropped)]
    (fun counter => only .escalated 1 counter + only .dropped dropped counter) rfl (fun counter => ?_) (fun counter => ?_)
  · cases counter with
    | dropped =>
      show _ = _ + (0 + dropped)
      rw [Nat.zero_add]
      rfl
    | _ => rfl
  · cases counter with
    | dropped =>
      show 0 + (0 + dropped) ≡ tally [.Kill _ (.ofNat dropped)] .dropped + 0 [MOD 2 ^ 64]
      rw [tally_one,Nat.zero_add,Nat.zero_add,Nat.add_zero]
      exact truncated dropped
    | _ => rfl

theorem handle_restart_tallied (ord : Nat) : Ensures Tallied (handle_restart ord) (fun _ => Tallied) := by
  refine .bind (fun _ => Tallied) (.modifyGet (fun s tallied => tallied.same rfl)) (fun result => ?_)
  cases result with
  | ok =>
    refine .bind (fun _ => Tallied) (.modify (fun s tallied => ?_)) (fun _ => respawn_tallied ord)
    refine tallied.noted [.Restart (.ofNat ord) true] (only .restarted 1) rfl (fun counter => ?_) (fun counter => ?_)
    · cases counter <;> rfl
    · cases counter <;> rfl
  | error =>
    refine .bind (fun _ => Tallied) (.modify (fun s tallied => ?_)) (fun _ => kill_tallied ord)
    exact tallied.silent (.Restart (.ofNat ord) false) rfl (fun _ => rfl) (fun counter => by cases counter <;> rfl)

theorem tallied_discard (t : SimTask) {s : Sim} (tallied : Tallied s) : Tallied (s.discard t) := by
  have marks : ∀ (mids : List Nat) (s : Sim), books (mids.foldl Sim.mark_lost s) = books s := by
    intro mids
    induction mids with
    | nil => exact fun _ => rfl
    | cons mid mids ih => exact fun s => ih (s.mark_lost mid)
  have marked : Tallied (t.mids.foldl Sim.mark_lost s) := tallied.same (marks t.mids s)
  unfold Sim.discard
  cases first : t.mids.head? with
  | none => exact marked.same rfl
  | some mid =>
    exact marked.silent (.Discard (.ofNat mid) (.ofNat t.app_len) (.ofNat t.ord)) rfl (fun _ => rfl)
      (fun counter => by cases counter <;> rfl)

theorem settle_record_tallied (record : ExecRecord) : Ensures Tallied (settle_record record) (fun _ => Tallied) := by
  refine get_owed (fun s _ => .lift_bind (fun ord _ => .lift_bind (fun _ _ =>
    .bind (fun _ => Tallied) (.modify (fun s tallied => tallied.same rfl)) (fun _ => ?_))))
  cases record.tag with
  | Custom mid =>
    refine .lift_bind (fun times _ => .modify (fun s tallied => ?_))
    refine tallied.noted [.Process mid (.ofNat ord)] (only .processed 1) rfl (fun counter => ?_) (fun counter => ?_)
    · cases counter <;> rfl
    · cases counter <;> rfl
  | System =>
    refine .modify (fun s tallied => ?_)
    refine tallied.noted [.ProcessSystem (.ofNat ord)] (only .system_processed 1) rfl (fun counter => ?_) (fun counter => ?_)
    · cases counter <;> rfl
    · cases counter <;> rfl

theorem run_task_books (task : queue.Task) (crash : Bool) : Keeps books (run_task task crash) :=
  .get_bind (fun _ => .lift_bind (fun _ => .bind (.modify (fun _ => rfl)) (fun _ => .pure _)))

theorem execute_chosen_tallied (t : SimTask) (crash_prob : F64) :
    Ensures Tallied (execute_chosen t crash_prob) (fun _ => Tallied) := by
  refine .bind _ (owed_keeps (roll_if_books _ _)) (fun crash => .bind _ (owed_keeps (run_task_books _ _)) (fun result => ?_))
  obtain ⟨processed,records⟩ := result
  refine .lift_bind (fun _ _ => .bind (fun _ => Tallied)
    (Meets.forM (fun _ => Tallied) (fun record _ => settle_record_tallied record) records) (fun _ => ?_))
  split
  · refine .bind (fun _ => Owed (only .crashed 1)) (.modify (fun s tallied => ?_))
      (fun _ => .bind _ (settle_crash_pays _ _) (fun _ => handle_restart_tallied _))
    refine tallied.noted [] (only .crashed 1) (by simp) (fun counter => ?_) (fun counter => ?_)
    · cases counter <;> rfl
    · show 0 + only .crashed 1 counter ≡ 0 + only .crashed 1 counter [MOD 2 ^ 64]
      rfl
  · exact .pure _ (fun _ tallied => tallied)

theorem process_chosen_tallied (t : SimTask) : Ensures Tallied (process_chosen t) (fun _ => Tallied) := by
  unfold process_chosen
  refine get_owed (fun s _ => .lift_bind (fun led _ => .lift_bind (fun queued _ =>
    .bind (fun _ => Tallied) (.modify (fun s tallied => tallied.same rfl)) (fun _ => ?_))))
  split
  · exact execute_chosen_tallied t _
  · exact execute_chosen_tallied t _
  all_goals exact .modify (fun _ => tallied_discard t)

theorem process_ready_tallied (draws : Nat) : Ensures Tallied (process_ready draws) (fun _ => Tallied) := by
  induction draws with
  | zero => exact .pure _ (fun _ tallied => tallied)
  | succ draws ih =>
    have picks : Keeps books pick_next :=
      .get_bind (fun _ => .lift_bind (fun _ => .bind (.modify (fun _ => rfl)) (fun _ => .pure _)))
    refine .bind _ (owed_keeps picks) (fun picked => ?_)
    cases picked with
    | none => exact .pure _ (fun _ tallied => tallied)
    | some t => exact .bind _ (process_chosen_tallied t) (fun _ => ih)

/-! ## Runs -/

theorem round_tallied : Ensures Tallied sim.round (fun _ => Tallied) := by
  refine get_owed (fun s _ => .lift_bind (fun _ _ =>
    .bind (fun _ => Tallied) (.modify (fun s tallied => tallied.same rfl)) (fun _ => ?_)))
  refine .bind _ inject_workload_tallied (fun _ => .bind _ (get_owed (fun s _ => deliver_loop_tallied _)) (fun _ => ?_))
  refine .bind _ (get_owed (fun s _ => retry_loop_tallied _)) (fun _ => .bind _ (process_ready_tallied _) (fun _ => ?_))
  exact get_owed (fun _ _ => .lift (fun _ _ _ tallied => tallied))

theorem rounds_tallied (steps executed : Nat) : Ensures Tallied (rounds steps executed) (fun _ => Tallied) := by
  induction steps generalizing executed with
  | zero => exact .pure _ (fun _ tallied => tallied)
  | succ steps ih =>
    refine get_owed (fun s _ => ?_)
    split
    · exact .pure _ (fun _ tallied => tallied)
    · exact .bind _ round_tallied (fun _ => ih _)

theorem run_tallied (steps : Nat) : Ensures Tallied (run steps) (fun _ => Tallied) := by
  refine .bind _ (rounds_tallied steps 0) (fun executed => get_owed (fun s _ => ?_))
  split
  · exact .lift_bind (fun _ _ => .pure _ (fun _ tallied => tallied))
  · exact .pure _ (fun _ tallied => tallied)

theorem tallied_start (seed : UInt64) (config : SimConfig) (draws : Nat → UInt64) (outside : Outside) :
    Tallied (.start seed config draws outside) := by
  intro counter
  cases counter <;> rfl

/-- At the end of every simulation each of the eight counters is the tally of the
    trace, in the 64 bits that the counters have. -/
theorem counters_tally (seed : UInt64) (config : SimConfig) (draws : Nat → UInt64) (outside : Outside) (runs : List Nat)
    {s : Sim} (ended : simulate seed config draws outside runs = .ok () s) (counter : Counter) :
    UInt64.ofNat (counter.read s.stats) = UInt64.ofNat (tally s.trace counter) := by
  have whole : Ensures Tallied (do with_config; runs.forM (fun steps => do let _ ← run steps)) (fun _ => Tallied) := by
    refine .bind _ with_config_tallied (fun _ => Meets.forM (fun _ => Tallied) (fun steps _ => ?_) runs)
    exact .bind _ (run_tallied steps) (fun _ => .pure _ (fun _ tallied _ => tallied))
  have tallied := whole.holds _ (tallied_start seed config draws outside) trivial
  unfold simulate EStateM.run at ended
  rw [ended] at tallied
  have same := tallied counter
  rw [← UInt64.toNat_inj,UInt64.toNat_ofNat',UInt64.toNat_ofNat']
  exact same

/-- A crash, a restart and the message that is lost with them. -/
theorem counters_tally_crashing : ∃ s, simulate 0 crashing (fun _ => 0) still [3] = .ok () s ∧ s.stats.crashed = 1 ∧
    ∀ counter, UInt64.ofNat (Counter.read s.stats counter) = UInt64.ofNat (tally s.trace counter) := by
  have ran : (simulate 0 crashing (fun _ => 0) still [3]).casesOn (motive := fun _ => Bool)
      (fun _ s => s.stats.crashed == 1) (fun _ _ => false) = true := by decide +kernel
  have holds := @counters_tally 0 crashing (fun _ => 0) still [3]
  revert ran holds
  cases simulate 0 crashing (fun _ => 0) still [3] with
  | error failure s => exact fun ran _ => by cases ran
  | ok a s => exact fun ran holds => ⟨s,rfl,by simpa using ran,holds rfl⟩

end ActorKit.Sim.Tallies
