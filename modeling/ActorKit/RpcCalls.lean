import ActorKit.RpcSteps
import ActorKit.Lib.Counting

/-!
# Calls resolve at most once and never cross

A response handler, a cleanup and a caller that gives up may all go for the same
entry of the table. The sender of a channel is in one place at a time: in the
table under the id of its call, with a responder, or used up. Whoever removes the
entry owns it, and who comes later finds nothing.
-/

namespace ActorKit.RpcCalls
open ActorKit.rpc ActorKit.Bincode ActorKit.Transition

/-! ## What the table knows about a caller -/

/-- A caller without its control state. -/
structure Record where
  call : Call
  received : List Bytes
  deadline : Option Instant

def record (caller : Caller) : Record := ⟨caller.call,caller.received,caller.deadline⟩

def Record.push (r : Record) (payload : Bytes) : Record := { r with received := r.received ++ [payload] }

def records (s : Client) : List Record := s.callers.map record

/-- The payload may have arrived or not. -/
inductive Sent (before : List Record) (tx : Nat) (payload : Bytes) : List Record → Prop where
  | lost : Sent before tx payload before
  | arrived : Sent before tx payload (before.modify tx (·.push payload))

theorem tx_send_sent (s : Client) (tx : Nat) (payload : Bytes) :
    Sent (records s) tx payload (records (s.tx_send tx payload)) := by
  cases found : s.callers[tx]? with
  | none =>
    have same : records (s.tx_send tx payload) = records s := by
      rw [records,Client.tx_send,List.modify_eq_set_getElem?,found]
      rfl
    rw [same]
    exact .lost
  | some caller =>
    have recorded : (records s)[tx]? = some (record caller) := by rw [records,List.getElem?_map,found]; rfl
    by_cases rx : caller.rx
    · have same : records (s.tx_send tx payload) = (records s).modify tx (·.push payload) := by
        rw [Counting.modify_found recorded,records,Client.tx_send,Counting.modify_found found,List.map_set,if_pos rx]
        rfl
      rw [same]
      exact .arrived
    · have same : records (s.tx_send tx payload) = records s := by
        rw [records,Client.tx_send,Counting.modify_found found,List.map_set,if_neg rx]
        exact Counting.set_same recorded
      rw [same]
      exact .lost

theorem put_records {s : Client} {i : Nat} {caller caller' : Caller} (found : s.callers[i]? = some caller)
    (same : record caller' = record caller) : records (s.put i caller') = records s := by
  rw [records,Client.put,List.map_set,same]
  exact Counting.set_same (by rw [List.getElem?_map,found]; rfl)

/-! ## The steps -/

section
variable {explain : Wire → Bytes → String} {s s' : Client} {label : Label}

/-- A step with its guards. -/
inductive Turn (s : Client) : Label → Client → Prop where
  | tick (elapsed : Duration) : Turn s (.tick elapsed) { s with clock := s.clock + elapsed }
  | call {i : Nat} {caller : Caller} {act : Act} {s' : Client} (found : s.callers[i]? = some caller)
      (stepped : s.advance i caller act = some s') : Turn s (.call i act) s'
  | undecodable {bytes : Bytes} (free : s.cleaning = none) (undecoded : RpcEnvelope.format.decode bytes = none) :
      Turn s (.respond bytes) { s with handled := s.handled ++ [bytes] }
  | respond {bytes : Bytes} {envelope : RpcEnvelope} (free : s.cleaning = none)
      (decoded : RpcEnvelope.format.decode bytes = some envelope) :
      Turn s (.respond bytes) { s with
        pending := s.pending.erase envelope.correlation_id
        handled := s.handled ++ [bytes]
        responders := s.responders ++
          ((s.pending.lookup envelope.correlation_id).map (·,envelope.payload)).toList }
  | deliver {j : Nat} {call : PendingCall} {payload : Bytes} (found : s.responders[j]? = some (call,payload)) :
      Turn s (.deliver j) ({ s with responders := s.responders.eraseIdx j }.tx_send call.tx payload)
  | read_clock : Turn s .read_clock { s with readings := s.readings ++ [s.clock] }
  | collect {j : Nat} {now : Instant} (found : s.readings[j]? = some now) (free : s.cleaning = none) :
      Turn s (.collect j) { s with
        readings := s.readings.eraseIdx j
        cleaning := some (now,s.pending.expired now)
        swept := s.swept ++ [now] }
  | clean {k : Nat} {now : Instant} {ids : List Uuid} {id : Uuid} {call : PendingCall}
      (cleaning : s.cleaning = some (now,ids)) (listed : ids[k]? = some id) (found : s.pending.lookup id = some call) :
      Turn s (.clean k) ({ s with
        pending := s.pending.erase id
        cleaning := some (now,ids.eraseIdx k) }.tx_send call.tx (timeout_response id))
  | skip {k : Nat} {now : Instant} {ids : List Uuid} {id : Uuid} (cleaning : s.cleaning = some (now,ids))
      (listed : ids[k]? = some id) :
      Turn s (.clean k) { s with pending := s.pending.erase id,cleaning := some (now,ids.eraseIdx k) }
  | unlock {now : Instant} (cleaning : s.cleaning = some (now,[])) : Turn s .unlock { s with cleaning := none }

theorem step_turn (stepped : s.step explain label = some s') : Turn s label s' := by
  unfold Client.step at stepped
  split at stepped
  case h_1 =>
    cases stepped
    exact .tick _
  case h_2 =>
    split at stepped
    · next found => exact .call found stepped
    · cases stepped
  case h_3 bytes =>
    split at stepped
    · next free =>
      rw [handle_response_eq] at stepped
      cases decoded : RpcEnvelope.format.decode bytes with
      | none =>
        rw [decoded] at stepped
        cases stepped
        exact .undecodable (Option.isNone_iff_eq_none.mp free) decoded
      | some envelope =>
        rw [decoded] at stepped
        cases stepped
        exact .respond (Option.isNone_iff_eq_none.mp free) decoded
    · cases stepped
  case h_4 =>
    split at stepped
    · next found =>
      cases stepped
      exact .deliver found
    · cases stepped
  case h_5 =>
    cases stepped
    exact .read_clock
  case h_6 =>
    split at stepped
    · next found free =>
      cases stepped
      exact .collect found free
    · cases stepped
  case h_7 =>
    split at stepped
    · next cleaning =>
      split at stepped
      · next listed =>
        dsimp only [PendingCalls.remove] at stepped
        split at stepped
        · next found =>
          cases stepped
          exact .clean cleaning listed found
        · cases stepped
          exact .skip cleaning listed
      · cases stepped
    · cases stepped
  case h_8 =>
    split at stepped
    · next cleaning =>
      cases stepped
      exact .unlock cleaning
    · cases stepped

end

/-! ## What one step does -/

/-- The id that a step acts on. -/
def subject (s : Client) : Label → Option Uuid
  | .call i .register | .call i .remove => (s.callers[i]?).map (·.call.correlation_id)
  | .respond bytes => (RpcEnvelope.format.decode bytes).map (·.correlation_id)
  | .clean k => s.cleaning.bind (fun (_,ids) => ids[k]?)
  | _ => none

def registers : Label → Bool
  | .call _ .register => true
  | _ => false

/-- Some handled response carried this payload under this id. -/
def Responded (s : Client) (id : Uuid) (payload : Bytes) : Prop :=
  ∃ bytes ∈ s.handled, ∃ envelope, RpcEnvelope.format.decode bytes = some envelope ∧
    envelope.correlation_id = id ∧ envelope.payload = payload

/-- What happens to the table, to the senders and to the channels. -/
inductive Effect (s s' : Client) : Option Uuid → Bool → Prop where
  | quiet {key : Option Uuid} {registering : Bool} (pending : s'.pending = s.pending) (responders : s'.responders = s.responders)
      (same : records s' = records s) : Effect s s' key registering
  | registered {i : Nat} {r : Record} (found : (records s)[i]? = some r) (unregistered : r.deadline = none)
      (pending : s'.pending = s.pending.insert r.call.correlation_id i r.call.timeout s.clock)
      (responders : s'.responders = s.responders)
      (entered : records s' = (records s).set i { r with deadline := some (s.clock + r.call.timeout) }) :
      Effect s s' (some r.call.correlation_id) true
  | removed {key : Uuid} (pending : s'.pending = s.pending.erase key) (responders : s'.responders = s.responders)
      (same : records s' = records s) : Effect s s' (some key) false
  | taken {key : Uuid} {call : PendingCall} {payload : Bytes} (found : s.pending.lookup key = some call)
      (pending : s'.pending = s.pending.erase key) (responders : s'.responders = s.responders ++ [(call,payload)])
      (same : records s' = records s) (responded : Responded s' key payload) : Effect s s' (some key) false
  | delivered {j : Nat} {call : PendingCall} {payload : Bytes} (found : s.responders[j]? = some (call,payload))
      (pending : s'.pending = s.pending) (responders : s'.responders = s.responders.eraseIdx j)
      (sent : Sent (records s) call.tx payload (records s')) : Effect s s' none false
  | expired {now : Instant} {ids : List Uuid} {id : Uuid} {call : PendingCall}
      (cleaning : s.cleaning = some (now,ids)) (listed : id ∈ ids) (found : s.pending.lookup id = some call)
      (pending : s'.pending = s.pending.erase id) (responders : s'.responders = s.responders)
      (sent : Sent (records s) call.tx (timeout_response id) (records s')) : Effect s s' (some id) false

/-- Who has not started has no deadline yet. -/
def Unstarted (s : Client) : Prop := ∀ caller ∈ s.callers, caller.pc = .start → caller.deadline = none

theorem advance_effect {s s' : Client} {i : Nat} {caller : Caller} {act : Act} (unstarted : Unstarted s)
    (found : s.callers[i]? = some caller) (stepped : s.advance i caller act = some s') :
    Effect s s' (subject s (.call i act)) (registers (.call i act)) := by
  unfold Client.advance at stepped
  split at stepped
  · next start =>
    split at stepped
    · cases stepped
      exact .quiet rfl rfl (put_records found rfl)
    · split at stepped
      · cases stepped
        have recorded : (records s)[i]? = some (record caller) := by rw [records,List.getElem?_map,found]; rfl
        have subject : subject s (.call i .register) = some (record caller).call.correlation_id := by
          simp [RpcCalls.subject,found,record]
        rw [subject]
        refine .registered recorded (unstarted caller (List.mem_of_getElem? found) start) rfl rfl ?_
        simp [records,Client.put,record]
      · cases stepped
  · split at stepped
    · cases stepped
      exact .quiet rfl rfl (put_records found rfl)
    · cases stepped
      exact .quiet rfl rfl (put_records found rfl)
  · split at stepped
    · cases stepped
      exact .quiet rfl rfl (put_records found rfl)
    · split at stepped
      · cases stepped
      · cases stepped
        exact .quiet rfl rfl (put_records found rfl)
  · split at stepped
    · cases stepped
      exact .quiet rfl rfl (put_records found rfl)
    · cases stepped
  · cases stepped
    exact .quiet rfl rfl (put_records found rfl)
  · split at stepped
    · cases stepped
      have subject : subject s (.call i .remove) = some caller.call.correlation_id := by simp [RpcCalls.subject,found]
      rw [subject]
      exact .removed rfl rfl (put_records (s := { s with pending := _ }) found rfl)
    · cases stepped
  · cases stepped

section
variable {explain : Wire → Bytes → String} {s s' : Client} {label : Label}

theorem Turn.effect (unstarted : Unstarted s) (turn : Turn s label s') : Effect s s' (subject s label) (registers label) := by
  cases turn with
  | tick | undecodable | read_clock | collect | unlock => exact .quiet rfl rfl rfl
  | call found stepped => exact advance_effect unstarted found stepped
  | @respond bytes envelope free decoded =>
    have key : subject s (.respond bytes) = some envelope.correlation_id := by simp [subject,decoded]
    rw [key]
    cases found : s.pending.lookup envelope.correlation_id with
    | none => exact .removed rfl (by simp) rfl
    | some call =>
      have responded : Responded { s with handled := s.handled ++ [bytes] } envelope.correlation_id envelope.payload :=
        ⟨bytes,by simp,envelope,decoded,rfl,rfl⟩
      exact .taken found rfl (by simp) rfl responded
  | deliver found => exact .delivered found rfl rfl (tx_send_sent _ _ _)
  | @clean k now ids id call cleaning listed found =>
    have key : subject s (.clean k) = some id := by simp [subject,cleaning,listed]
    rw [key]
    exact .expired cleaning (List.mem_of_getElem? listed) found rfl rfl (tx_send_sent _ _ _)
  | @skip k now ids id cleaning listed =>
    have key : subject s (.clean k) = some id := by simp [subject,cleaning,listed]
    rw [key]
    exact .removed rfl rfl rfl

/-- A step on one id leaves the other entries as they are. -/
theorem Effect.frame {key : Option Uuid} {registering : Bool} (effect : Effect s s' key registering) (k : Uuid)
    (other : key ≠ some k) : s'.pending.lookup k = s.pending.lookup k := by
  cases effect with
  | quiet pending => rw [pending]
  | delivered _ pending => rw [pending]
  | registered _ _ pending =>
    rw [pending]
    exact AList.lookup_insert_ne (fun same => other (congrArg some same.symm))
  | removed pending | taken _ pending | expired _ _ _ pending =>
    rw [pending]
    exact AList.lookup_erase_ne (fun same => other (congrArg some same.symm))

/-- A step on an id that is not in the table changes nothing, unless it registers the id. -/
theorem Effect.unknown {key : Option Uuid} (effect : Effect s s' key false)
    (absent : ∀ k, key = some k → s.pending.lookup k = none) : s'.pending = s.pending := by
  cases effect with
  | quiet pending | delivered _ pending => exact pending
  | removed pending => rw [pending,Dict.erase_absent _ _ (absent _ rfl)]
  | taken found | expired _ _ found =>
    rw [absent _ rfl] at found
    cases found

end

/-! ## The parties -/

theorem advance_parties {s s' : Client} {i : Nat} {caller : Caller} {act : Act}
    (stepped : s.advance i caller act = some s') :
    (∃ caller', s'.callers = s.callers.set i caller' ∧ caller'.pc ≠ .start) ∧ s'.clock = s.clock ∧ s'.handled = s.handled ∧
      s'.swept = s.swept ∧ s'.readings = s.readings ∧ s'.cleaning = s.cleaning ∧
      (s.cleaning ≠ none → s'.pending = s.pending) := by
  unfold Client.advance at stepped
  split at stepped <;> (try split at stepped) <;> (try split at stepped) <;> cases stepped <;>
    refine ⟨⟨_,rfl,nofun⟩,rfl,rfl,rfl,rfl,rfl,?_⟩ <;> simp_all [Client.put]

section
variable {explain : Wire → Bytes → String} {s s' : Client} {label : Label}

/-- What no step takes back. -/
structure Grown (s s' : Client) : Prop where
  clock : s.clock ≤ s'.clock
  handled : s.handled ⊆ s'.handled
  swept : s.swept ⊆ s'.swept

theorem Turn.grown (turn : Turn s label s') : Grown s s' := by
  cases turn with
  | tick => exact ⟨Nat.le_add_right ..,List.Subset.refl _,List.Subset.refl _⟩
  | call found stepped =>
    obtain ⟨-,clock,handled,swept,-⟩ := advance_parties stepped
    exact ⟨clock.ge,by rw [handled]; exact List.Subset.refl _,by rw [swept]; exact List.Subset.refl _⟩
  | undecodable | respond => exact ⟨Nat.le_refl _,List.subset_append_left _ _,List.Subset.refl _⟩
  | collect => exact ⟨Nat.le_refl _,List.Subset.refl _,List.subset_append_left _ _⟩
  | deliver | read_clock | clean | skip | unlock =>
    exact ⟨Nat.le_refl _,List.Subset.refl _,List.Subset.refl _⟩

theorem tx_send_unstarted {tx : Nat} {payload : Bytes} (unstarted : Unstarted s) : Unstarted (s.tx_send tx payload) := by
  intro caller member start
  obtain ⟨j,found⟩ := List.mem_iff_getElem?.mp member
  rw [Client.tx_send,List.getElem?_modify,Option.map_eq_map,Option.map_eq_some_iff] at found
  obtain ⟨before,there,same⟩ := found
  have kept : caller.pc = before.pc ∧ caller.deadline = before.deadline := by
    split at same
    · split at same <;> cases same <;> exact ⟨rfl,rfl⟩
    · cases same
      exact ⟨rfl,rfl⟩
  rw [kept.2]
  exact unstarted before (List.mem_of_getElem? there) (kept.1.symm.trans start)

theorem Turn.unstarted (turn : Turn s label s') (unstarted : Unstarted s) : Unstarted s' := by
  cases turn with
  | call found stepped =>
    obtain ⟨⟨caller',callers,started⟩,-⟩ := advance_parties stepped
    intro caller member start
    rw [callers] at member
    rcases List.mem_or_eq_of_mem_set member with member | rfl
    · exact unstarted caller member start
    · exact absurd start started
  | deliver | clean => exact tx_send_unstarted unstarted
  | tick | undecodable | respond | read_clock | collect | skip | unlock => exact unstarted

/-- What the cleanup tasks know: the ids that are left are those of expired calls. -/
structure Locked (s : Client) : Prop where
  readings : ∀ now ∈ s.readings, now ≤ s.clock
  swept : ∀ now ∈ s.swept, now ≤ s.clock
  cleaning : ∀ now ids, s.cleaning = some (now,ids) →
    now ∈ s.swept ∧ ∀ id ∈ ids, ∀ call, s.pending.lookup id = some call → call.deadline ≤ now

theorem lookup_of_erase {pending : PendingCalls} {k key : Uuid} {call : PendingCall}
    (found : (pending.erase k).lookup key = some call) : pending.lookup key = some call := by
  rw [Dict.lookup_erase_ite] at found
  split at found
  · cases found
  · exact found

theorem expired_deadline {pending : PendingCalls} {now : Instant} {id : Uuid} {call : PendingCall}
    (listed : id ∈ pending.expired now) (found : pending.lookup id = some call) : call.deadline ≤ now := by
  obtain ⟨⟨id',call'⟩,kept,rfl⟩ := List.mem_map.mp listed
  obtain ⟨stored,due⟩ := List.mem_filter.mp kept
  have there := (Dict.mem_items pending id' call').mp stored
  rw [found] at there
  cases there
  simpa using due

/-- One turn of the loop leaves fewer ids and fewer entries. -/
theorem Locked.turn (locked : Locked s) {now : Instant} {ids : List Uuid} (cleaning : s.cleaning = some (now,ids)) (k : Nat)
    (id : Uuid) {callers : List Caller} :
    Locked { s with pending := s.pending.erase id,cleaning := some (now,ids.eraseIdx k),callers } := by
  refine ⟨locked.readings,locked.swept,?_⟩
  rintro now' ids' same
  cases same
  obtain ⟨swept,due⟩ := locked.cleaning now ids cleaning
  refine ⟨swept,fun id' listed call found => ?_⟩
  exact due id' (List.mem_of_mem_eraseIdx listed) call (lookup_of_erase found)

theorem Turn.locked (turn : Turn s label s') (locked : Locked s) : Locked s' := by
  cases turn with
  | tick elapsed =>
    exact ⟨fun now member => Nat.le_add_right_of_le (locked.readings now member),
      fun now member => Nat.le_add_right_of_le (locked.swept now member),locked.cleaning⟩
  | call found stepped =>
    obtain ⟨-,clock,-,swept,readings,cleaning,pending⟩ := advance_parties stepped
    refine ⟨by rw [readings,clock]; exact locked.readings,by rw [swept,clock]; exact locked.swept,?_⟩
    intro now ids held
    rw [cleaning] at held
    rw [swept,pending (by rw [held]; nofun)]
    exact locked.cleaning now ids held
  | undecodable free | respond free =>
    refine ⟨locked.readings,locked.swept,fun now ids held => ?_⟩
    rw [show s.cleaning = some (now,ids) from held] at free
    cases free
  | deliver => exact ⟨locked.readings,locked.swept,locked.cleaning⟩
  | read_clock =>
    refine ⟨fun now member => ?_,locked.swept,locked.cleaning⟩
    rcases List.mem_append.mp member with member | member
    · exact locked.readings now member
    · exact (List.mem_singleton.mp member).le
  | @collect j now found free =>
    have current := locked.readings now (List.mem_of_getElem? found)
    refine ⟨fun now' member => locked.readings now' (List.mem_of_mem_eraseIdx member),fun now' member => ?_,?_⟩
    · rcases List.mem_append.mp member with member | member
      · exact locked.swept now' member
      · exact (List.mem_singleton.mp member).le.trans current
    · rintro now' ids same
      cases same
      exact ⟨by simp,fun id listed call stored => expired_deadline listed stored⟩
  | @clean k now ids id call cleaning => exact locked.turn cleaning k id
  | @skip k now ids id cleaning => exact locked.turn cleaning k id
  | unlock => exact ⟨locked.readings,locked.swept,nofun⟩

/-! ## At most once -/

/-- The places where the sender of call `j` is. -/
def senders (s : Client) (j : Nat) : Nat :=
  s.pending.values.countP (fun call => call.tx = j) + s.responders.countP (fun responder => responder.1.tx = j)

/-- How often the channel of call `j` has received. -/
def spent (rs : List Record) (j : Nat) : Nat := rs[j]?.elim 0 (·.received.length)

/-- The senders that call `j` has been given. -/
def created (rs : List Record) (j : Nat) : Nat := rs[j]?.elim 0 (fun r => if r.deadline.isSome then 1 else 0)

/-- Every sender is in one place or used up. -/
def Once (s : Client) : Prop := ∀ j, senders s j + spent (records s) j ≤ created (records s) j

theorem Sent.spent {before after : List Record} {tx : Nat} {payload : Bytes} (sent : Sent before tx payload after) (j : Nat) :
    spent after j ≤ spent before j + (if tx = j then 1 else 0) ∧ created after j = created before j := by
  cases sent with
  | lost => exact ⟨Nat.le_add_right ..,rfl⟩
  | arrived =>
    unfold RpcCalls.spent created
    rw [List.getElem?_modify]
    cases before[j]? with
    | none => simp
    | some r => by_cases same : tx = j <;> simp [same,Record.push]

theorem Effect.once {key : Option Uuid} {registering : Bool} (effect : Effect s s' key registering) (once : Once s) :
    Once s' := by
  intro j
  have before := once j
  cases effect with
  | quiet pending responders same =>
    rw [senders,pending,responders,same]
    exact before
  | @registered i r found unregistered pending responders entered =>
    have fewer := (Dict.values_erase_sublist s.pending r.call.correlation_id).countP_le (p := fun call => call.tx = j)
    have table : s'.pending.values.countP (fun call => call.tx = j) ≤
        s.pending.values.countP (fun call => call.tx = j) + (if i = j then 1 else 0) := by
      rw [pending,PendingCalls.insert,Dict.values_insert,List.countP_cons]
      simp only [decide_eq_true_eq]
      omega
    have inside : i < (records s).length := (List.getElem?_eq_some_iff.mp found).1
    rw [senders,responders,entered]
    by_cases same : i = j
    · subst same
      simp only [senders,spent,created,found,unregistered,Option.elim_some,List.getElem?_set_self inside,
        Option.isSome_none,Option.isSome_some,if_true,Bool.false_eq_true,if_false] at before table ⊢
      omega
    · simp only [senders,spent,created,List.getElem?_set_ne same] at before table ⊢
      simp only [same,if_false] at table
      omega
  | @removed key pending responders same =>
    have fewer := (Dict.values_erase_sublist s.pending key).countP_le (p := fun call => call.tx = j)
    rw [senders] at before ⊢
    rw [pending,responders,same]
    omega
  | @taken key call payload found pending responders same =>
    have table := (Dict.values_erase found).countP_eq (fun call => call.tx = j)
    rw [List.countP_cons] at table
    rw [senders] at before ⊢
    rw [pending,responders,same,List.countP_append,List.countP_singleton]
    dsimp only at table ⊢
    omega
  | @delivered k call payload found pending responders sent =>
    obtain ⟨inside,there⟩ := List.getElem?_eq_some_iff.mp found
    have flying := (List.getElem_cons_eraseIdx_perm inside).countP_eq (fun responder => responder.1.tx = j)
    rw [there,List.countP_cons] at flying
    obtain ⟨received,unchanged⟩ := sent.spent j
    rw [senders] at before ⊢
    rw [pending,responders,unchanged]
    simp only [decide_eq_true_eq] at flying
    omega
  | @expired now ids id call cleaning listed found pending responders sent =>
    have table := (Dict.values_erase found).countP_eq (fun call => call.tx = j)
    rw [List.countP_cons] at table
    obtain ⟨received,unchanged⟩ := sent.spent j
    rw [senders] at before ⊢
    rw [pending,responders,unchanged]
    simp only [decide_eq_true_eq] at table
    omega

/-! ## Never crossed -/

/-- Where a payload comes from: a response that carried the id of the call, or a
    cleanup after its deadline. -/
def Answered (s : Client) (call : Call) (deadline : Option Instant) (payload : Bytes) : Prop :=
  Responded s call.correlation_id payload ∨
    (payload = timeout_response call.correlation_id ∧
      ∃ due, deadline = some due ∧ ∃ now ∈ s.swept, due ≤ now ∧ now ≤ s.clock)

theorem Responded.grown {id : Uuid} {payload : Bytes} (responded : Responded s id payload) (grown : Grown s s') :
    Responded s' id payload := by
  obtain ⟨bytes,handled,rest⟩ := responded
  exact ⟨bytes,grown.handled handled,rest⟩

theorem Answered.grown {call : Call} {deadline : Option Instant} {payload : Bytes}
    (answered : Answered s call deadline payload) (grown : Grown s s') : Answered s' call deadline payload := by
  rcases answered with responded | ⟨same,due,entered,now,swept,late,past⟩
  · exact .inl (responded.grown grown)
  · exact .inr ⟨same,due,entered,now,grown.swept swept,late,past.trans grown.clock⟩

/-- The table, the responders and the channels hold what belongs to their call. -/
structure Traced (s : Client) : Prop where
  entered : ∀ key call, s.pending.lookup key = some call →
    ∃ r, (records s)[call.tx]? = some r ∧ r.call.correlation_id = key ∧ r.deadline = some call.deadline
  flying : ∀ call payload, (call,payload) ∈ s.responders →
    ∃ r, (records s)[call.tx]? = some r ∧ Responded s r.call.correlation_id payload
  received : ∀ (j : Nat) r, (records s)[j]? = some r → ∀ payload ∈ r.received, Answered s r.call r.deadline payload

/-- What a send leaves of the records. -/
theorem Sent.get {before after : List Record} {tx : Nat} {payload : Bytes} (sent : Sent before tx payload after) {j : Nat}
    {r : Record} (found : before[j]? = some r) :
    ∃ r', after[j]? = some r' ∧ r'.call = r.call ∧ r'.deadline = r.deadline := by
  cases sent with
  | lost => exact ⟨r,found,rfl,rfl⟩
  | arrived =>
    rw [List.getElem?_modify,found]
    by_cases same : tx = j <;> simp [same,Record.push]

theorem Sent.back {before after : List Record} {tx : Nat} {payload : Bytes} (sent : Sent before tx payload after) {j : Nat}
    {r' : Record} (found : after[j]? = some r') :
    ∃ r, before[j]? = some r ∧ r'.call = r.call ∧ r'.deadline = r.deadline ∧
      ∀ p ∈ r'.received, p ∈ r.received ∨ (j = tx ∧ p = payload) := by
  cases sent with
  | lost => exact ⟨r',found,rfl,rfl,fun p member => .inl member⟩
  | arrived =>
    rw [List.getElem?_modify,Option.map_eq_map,Option.map_eq_some_iff] at found
    obtain ⟨r,there,same⟩ := found
    split at same
    · next here =>
      subst same
      refine ⟨r,there,rfl,rfl,fun p member => ?_⟩
      rcases List.mem_append.mp member with member | member
      · exact .inl member
      · exact .inr ⟨here.symm,List.mem_singleton.mp member⟩
    · subst same
      exact ⟨_,there,rfl,rfl,fun p member => .inl member⟩

/-- A payload that belongs to its call may be sent. -/
theorem Traced.sent (traced : Traced s) (grown : Grown s s') {tx : Nat} {payload : Bytes}
    (sent : Sent (records s) tx payload (records s'))
    (entries : ∀ key call, s'.pending.lookup key = some call → s.pending.lookup key = some call)
    (responders : ∀ responder ∈ s'.responders, responder ∈ s.responders)
    (belongs : ∀ r, (records s)[tx]? = some r → Answered s' r.call r.deadline payload) : Traced s' where
  entered key call found := by
    obtain ⟨r,there,own,due⟩ := traced.entered key call (entries key call found)
    obtain ⟨r',there',call',deadline⟩ := sent.get there
    exact ⟨r',there',by rw [call',own],by rw [deadline,due]⟩
  flying call payload flying := by
    obtain ⟨r,there,responded⟩ := traced.flying call payload (responders _ flying)
    obtain ⟨r',there',call',-⟩ := sent.get there
    exact ⟨r',there',by rw [call']; exact responded.grown grown⟩
  received j r' found p member := by
    obtain ⟨r,there,call',deadline,origin⟩ := sent.back found
    rw [call',deadline]
    rcases origin p member with old | ⟨rfl,rfl⟩
    · exact (traced.received j _ there p old).grown grown
    · exact belongs _ there

/-- No channel receives anything, and no entry is added. -/
theorem Traced.kept (traced : Traced s) (grown : Grown s s') (same : records s' = records s)
    (entries : ∀ key call, s'.pending.lookup key = some call → s.pending.lookup key = some call)
    (responders : ∀ call payload, (call,payload) ∈ s'.responders → (call,payload) ∈ s.responders ∨
      ∃ r, (records s)[call.tx]? = some r ∧ Responded s' r.call.correlation_id payload) : Traced s' where
  entered key call found := by
    rw [same]
    exact traced.entered key call (entries key call found)
  flying call payload member := by
    rw [same]
    rcases responders call payload member with old | new
    · obtain ⟨r,there,responded⟩ := traced.flying call payload old
      exact ⟨r,there,responded.grown grown⟩
    · exact new
  received j r found payload member := by
    rw [same] at found
    exact (traced.received j r found payload member).grown grown

/-- A call that is registered had neither sender nor deadline before. -/
theorem Traced.registered (traced : Traced s) (grown : Grown s s') {i : Nat} {r : Record} (found : (records s)[i]? = some r)
    (unregistered : r.deadline = none)
    (pending : s'.pending = s.pending.insert r.call.correlation_id i r.call.timeout s.clock)
    (responders : s'.responders = s.responders)
    (entered : records s' = (records s).set i { r with deadline := some (s.clock + r.call.timeout) }) : Traced s' := by
  have inside : i < (records s).length := (List.getElem?_eq_some_iff.mp found).1
  have here : (records s')[i]? = some { r with deadline := some (s.clock + r.call.timeout) } := by
    rw [entered,List.getElem?_set_self inside]
  have there : ∀ j : Nat, i ≠ j → (records s')[j]? = (records s)[j]? := by
    intro j other
    rw [entered,List.getElem?_set_ne other]
  refine ⟨fun key call stored => ?_,fun call payload flying => ?_,fun j r' at_ payload member => ?_⟩
  · rw [pending,PendingCalls.insert,Dict.lookup_insert_ite] at stored
    split at stored
    · next same =>
      cases stored
      exact ⟨_,here,same.symm,rfl⟩
    · obtain ⟨r',found',own,due⟩ := traced.entered key call stored
      have other : i ≠ call.tx := by
        rintro rfl
        rw [found] at found'
        cases found'
        rw [unregistered] at due
        cases due
      exact ⟨r',by rw [there _ other]; exact found',own,due⟩
  · rw [responders] at flying
    obtain ⟨r',found',responded⟩ := traced.flying call payload flying
    by_cases same : i = call.tx
    · subst same
      rw [found] at found'
      cases found'
      exact ⟨_,here,responded.grown grown⟩
    · exact ⟨r',by rw [there _ same]; exact found',responded.grown grown⟩
  · by_cases same : i = j
    · subst same
      rw [here] at at_
      cases at_
      rcases traced.received i r found payload member with responded | ⟨-,due,known,-⟩
      · exact .inl (responded.grown grown)
      · rw [unregistered] at known
        cases known
    · rw [there j same] at at_
      exact (traced.received j r' at_ payload member).grown grown

theorem Effect.traced {key : Option Uuid} {registering : Bool} (effect : Effect s s' key registering) (grown : Grown s s')
    (locked : Locked s) (traced : Traced s) : Traced s' := by
  cases effect with
  | quiet pending responders same =>
    refine traced.kept grown same (fun key call found => ?_) (fun call payload flying => .inl ?_)
    · rwa [pending] at found
    · rwa [responders] at flying
  | registered found unregistered pending responders entered =>
    exact traced.registered grown found unregistered pending responders entered
  | removed pending responders same =>
    refine traced.kept grown same (fun key call found => ?_) (fun call payload flying => .inl ?_)
    · rw [pending] at found
      exact lookup_of_erase found
    · rwa [responders] at flying
  | @taken key call payload found pending responders same responded =>
    refine traced.kept grown same (fun key' call' stored => ?_) (fun call' payload' flying => ?_)
    · rw [pending] at stored
      exact lookup_of_erase stored
    · rw [responders] at flying
      rcases List.mem_append.mp flying with flying | flying
      · exact .inl flying
      · cases List.mem_singleton.mp flying
        obtain ⟨r,there,own,-⟩ := traced.entered key call found
        exact .inr ⟨r,there,by rw [own]; exact responded⟩
  | @delivered k call payload found pending responders sent =>
    have flying : (call,payload) ∈ s.responders := List.mem_of_getElem? found
    refine traced.sent grown sent (fun key call' stored => ?_) (fun responder member => ?_) (fun r there => .inl ?_)
    · rwa [pending] at stored
    · rw [responders] at member
      exact List.mem_of_mem_eraseIdx member
    · obtain ⟨r',there',responded⟩ := traced.flying call payload flying
      rw [there] at there'
      cases there'
      exact responded.grown grown
  | @expired now ids id call cleaning listed found pending responders sent =>
    obtain ⟨swept,due⟩ := locked.cleaning now ids cleaning
    have late := due id listed call found
    have past := (locked.swept now swept).trans grown.clock
    refine traced.sent grown sent (fun key call' stored => ?_) (fun responder member => ?_) (fun r there => .inr ?_)
    · rw [pending] at stored
      exact lookup_of_erase stored
    · rwa [responders] at member
    · obtain ⟨r',there',own,deadline⟩ := traced.entered id call found
      rw [there] at there'
      cases there'
      exact ⟨by rw [own],call.deadline,deadline,now,grown.swept swept,late,past⟩

/-! ## Every run -/

/-- What holds in every run. -/
structure Sound (calls : List Call) (s : Client) : Prop where
  calls : s.callers.map (·.call) = calls
  unstarted : Unstarted s
  locked : Locked s
  once : Once s
  traced : Traced s

theorem Effect.calls {key : Option Uuid} {registering : Bool} (effect : Effect s s' key registering) :
    (records s').map (·.call) = (records s).map (·.call) := by
  have sent : ∀ {tx payload after}, Sent (records s) tx payload after → after.map (·.call) = (records s).map (·.call) := by
    intro tx payload after sent
    apply List.ext_getElem?
    intro j
    rw [List.getElem?_map,List.getElem?_map]
    cases sent with
    | lost => rfl
    | arrived =>
      rw [List.getElem?_modify]
      cases (records s)[j]? with
      | none => rfl
      | some r => by_cases same : tx = j <;> simp [same,Record.push]
  cases effect with
  | quiet _ _ same | removed _ _ same | taken _ _ _ same => rw [same]
  | registered found _ _ _ entered =>
    rw [entered,List.map_set]
    exact Counting.set_same (by rw [List.getElem?_map,found]; rfl)
  | delivered _ _ _ reply => exact sent reply
  | expired _ _ _ _ _ reply => exact sent reply

theorem sound_init (calls : List Call) : Sound calls (.init calls) where
  calls := by simp [Client.init,Function.comp_def]
  unstarted caller member start := by
    obtain ⟨call,-,rfl⟩ := List.mem_map.mp member
    rfl
  locked := ⟨nofun,nofun,nofun⟩
  once j := by
    have none : senders (.init calls) j = 0 := rfl
    rw [none,Nat.zero_add,spent,records,Client.init,List.map_map,List.getElem?_map]
    cases calls[j]? <;> exact Nat.zero_le _
  traced := by
    refine ⟨nofun,nofun,fun j r found payload member => ?_⟩
    rw [records,Client.init,List.map_map,List.getElem?_map,Option.map_eq_some_iff] at found
    obtain ⟨call,-,rfl⟩ := found
    cases member

theorem sound_step {calls : List Call} (sound : Sound calls s) (stepped : s.step explain label = some s') :
    Sound calls s' := by
  have turn := step_turn stepped
  have effect := turn.effect sound.unstarted
  have same := effect.calls
  simp only [records,List.map_map] at same
  exact ⟨same.trans sound.calls,turn.unstarted sound.unstarted,turn.locked sound.locked,effect.once sound.once,
    effect.traced turn.grown sound.locked sound.traced⟩

theorem sound_reachable {calls : List Call} (reached : Reachable (Client.step explain) (.init calls) s) : Sound calls s :=
  reached.invariant (sound_init calls) (fun _ _ _ sound _ stepped => sound_step sound stepped)

/-- However responses, cleanups and timeouts interleave, the channel of a call
    receives at most one payload, and it belongs to the call; a step that acts on
    one id leaves the entries of the others, and a step on an unknown id leaves
    the table. -/
theorem calls_resolve_once {calls : List Call} (reached : Reachable (Client.step explain) (.init calls) s) :
    s.callers.map (·.call) = calls ∧
    (∀ caller ∈ s.callers, caller.received.length ≤ 1 ∧
      ∀ payload ∈ caller.received, Answered s caller.call caller.deadline payload) ∧
    (∀ label s', s.step explain label = some s' →
      (∀ key, subject s label ≠ some key → s'.pending.lookup key = s.pending.lookup key) ∧
      (registers label = false → (∀ key, subject s label = some key → s.pending.lookup key = none) →
        s'.pending = s.pending)) := by
  have sound := sound_reachable reached
  refine ⟨sound.calls,fun caller member => ?_,fun label s' stepped => ?_⟩
  · obtain ⟨j,found⟩ := List.mem_iff_getElem?.mp member
    have recorded : (records s)[j]? = some (record caller) := by rw [records,List.getElem?_map,found]; rfl
    constructor
    · have once := sound.once j
      simp only [spent,created,recorded,Option.elim_some,record] at once
      split at once <;> omega
    · exact sound.traced.received j _ recorded
  · have effect := (step_turn stepped).effect sound.unstarted
    constructor
    · exact effect.frame
    · intro plain absent
      rw [plain] at effect
      exact effect.unknown absent

end

/-- Two calls that are registered at the same time. -/
def pairOfCalls : List Call :=
  [{ correlation_id := 1,timeout := 10,envelope := .ok [] },{ correlation_id := 2,timeout := 5,envelope := .ok [] }]

/-- The first call is answered twice, while the second one expires in a cleanup
    and in its caller. -/
def contested : List Label :=
  let reply := RpcEnvelope.format.write { type_name := "Pong",payload := [7],correlation_id := 1 }
  [.call 0 .register,.call 1 .register,.call 0 (.send (.ok ())),.call 1 (.send (.ok ())),.respond reply,.tick 5,
    .read_clock,.respond reply,.collect 0,.call 1 .elapse,.clean 0,.deliver 0,.call 1 .drop,.unlock,.call 1 .remove,
    .call 0 .poll]

theorem calls_resolve_once_contested : ∃ s, Reachable (Client.step (fun _ _ => "")) (.init pairOfCalls) s ∧
    s.callers.map (·.received) = [[[7]],[timeout_response 2]] ∧
    s.callers.map (·.pc) = [.returned (.answered [7]),.returned .elapsed] ∧ s.pending.keys = [] ∧
    ∀ caller ∈ s.callers, caller.received.length ≤ 1 ∧
      ∀ payload ∈ caller.received, Answered s caller.call caller.deadline payload := by
  have seen : (run (Client.step (fun _ _ => "")) (.init pairOfCalls) contested).map (fun s =>
      (s.callers.map (·.received),s.callers.map (·.pc),s.pending.keys)) =
      some ([[[7]],[timeout_response 2]],[.returned (.answered [7]),.returned .elapsed],[]) := by decide +kernel
  obtain ⟨s,runs,same⟩ := Option.map_eq_some_iff.mp seen
  simp only [Prod.mk.injEq] at same
  have reached : Reachable (Client.step (fun _ _ => "")) (.init pairOfCalls) s := reachable_run .start runs
  exact ⟨s,reached,same.1,same.2.1,same.2.2,(calls_resolve_once reached).2.1⟩

end ActorKit.RpcCalls
