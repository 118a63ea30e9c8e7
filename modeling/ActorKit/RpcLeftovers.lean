import ActorKit.RpcCalls

/-!
# What a finished call leaves in the table

A call enters itself into the table before it sends. Of its five ways out the
timeout removes the entry, an answer and a closed channel mean that somebody else
has, and a request that was not serialized was never entered. A failed send
returns with the entry in place.
-/

namespace ActorKit.RpcLeftovers
open ActorKit.rpc ActorKit.Bincode ActorKit.Transition ActorKit.RpcCalls

section
variable (explain : Wire → Bytes → String)

/-- A call that has returned has no entry, and a call touches no entry but its
    own. -/
structure Tidy (s : Client) : Prop where
  settled : ∀ caller ∈ s.callers, ∀ ending, caller.pc = .returned ending →
    s.pending.lookup caller.call.correlation_id = none
  apart : ∀ (i : Nat) caller act s', s.callers[i]? = some caller → s.step explain (.call i act) = some s' →
    ∀ key, key ≠ caller.call.correlation_id → s'.pending.lookup key = s.pending.lookup key

end

/-- A send that fails finds the entry of its call removed already. -/
def sendsCleared (s : Client) : Label → Bool
  | .call i (.send (.error _)) =>
    s.callers[i]?.all (fun caller => (s.pending.lookup caller.call.correlation_id).isNone)
  | _ => true

/-! ## Whose entry it is -/

section
variable {explain : Wire → Bytes → String} {s s' : Client} {calls : List Call}

/-- Calls with distinct ids are told apart by them. -/
theorem same_caller (sound : Sound calls s) (distinct : (calls.map (·.correlation_id)).Nodup) {i j : Nat}
    {a b : Caller} (foundA : s.callers[i]? = some a) (foundB : s.callers[j]? = some b)
    (same : a.call.correlation_id = b.call.correlation_id) : i = j := by
  have ids : s.callers.map (·.call.correlation_id) = calls.map (·.correlation_id) := by
    rw [← sound.calls,List.map_map]
    rfl
  rw [← ids] at distinct
  have inside : i < (s.callers.map (·.call.correlation_id)).length := by
    rw [List.length_map]
    exact (List.getElem?_eq_some_iff.mp foundA).1
  refine (List.getElem?_inj inside distinct).mp ?_
  rw [List.getElem?_map,List.getElem?_map,foundA,foundB,Option.map_some,Option.map_some,same]

/-- The entry under the id of a call holds the sender of that call. -/
theorem entry_owner (sound : Sound calls s) (distinct : (calls.map (·.correlation_id)).Nodup) {i : Nat} {caller : Caller}
    {entry : PendingCall} (found : s.callers[i]? = some caller)
    (entered : s.pending.lookup caller.call.correlation_id = some entry) :
    entry.tx = i ∧ caller.deadline = some entry.deadline := by
  obtain ⟨r,there,own,due⟩ := sound.traced.entered _ entry entered
  rw [records,List.getElem?_map,Option.map_eq_some_iff] at there
  obtain ⟨owner,at_,rfl⟩ := there
  have same := same_caller sound distinct at_ found own
  rw [same,found] at at_
  cases at_
  exact ⟨same,due⟩

/-- Who has not started has no entry. -/
theorem unstarted_unentered (sound : Sound calls s) (distinct : (calls.map (·.correlation_id)).Nodup) {i : Nat}
    {caller : Caller} (found : s.callers[i]? = some caller) (start : caller.pc = .start) :
    s.pending.lookup caller.call.correlation_id = none := by
  cases entered : s.pending.lookup caller.call.correlation_id with
  | none => rfl
  | some entry =>
    have due := (entry_owner sound distinct found entered).2
    rw [sound.unstarted caller (List.mem_of_getElem? found) start] at due
    cases due

/-- Without a sender there is no entry. -/
theorem senderless_unentered (sound : Sound calls s) (distinct : (calls.map (·.correlation_id)).Nodup) {i : Nat}
    {caller : Caller} (found : s.callers[i]? = some caller) (none : ∀ entry ∈ s.pending.values, entry.tx ≠ i) :
    s.pending.lookup caller.call.correlation_id = .none := by
  cases entered : s.pending.lookup caller.call.correlation_id with
  | none => rfl
  | some entry =>
    have listed : entry ∈ s.pending.values :=
      List.mem_map.mpr ⟨(caller.call.correlation_id,entry),(Dict.mem_items ..).mpr entered,rfl⟩
    exact absurd (entry_owner sound distinct found entered).1 (none entry listed)

/-- A channel that has received has used its sender up. -/
theorem received_senderless (sound : Sound calls s) {i : Nat} {caller : Caller} (found : s.callers[i]? = some caller)
    (received : caller.received ≠ []) : ∀ entry ∈ s.pending.values, entry.tx ≠ i := by
  intro entry listed own
  have recorded : (records s)[i]? = some (record caller) := by rw [records,List.getElem?_map,found]; rfl
  have once := sound.once i
  have present : 0 < s.pending.values.countP (fun call => call.tx = i) :=
    List.countP_pos_iff.mpr ⟨entry,listed,by simp [own]⟩
  have arrived : 0 < caller.received.length := List.length_pos_iff.mpr received
  simp only [senders,spent,RpcCalls.created,recorded,Option.elim_some,record] at once
  split at once <;> omega

/-! ## One step -/

/-- Every call that has returned has no entry. -/
def Settled (s : Client) : Prop := ∀ (i : Nat) caller, s.callers[i]? = some caller → ∀ ending, caller.pc = .returned ending →
  s.pending.lookup caller.call.correlation_id = none

/-- A step of one caller that may write its own entry. -/
theorem settled_put (sound : Sound calls s) (distinct : (calls.map (·.correlation_id)).Nodup) (settled : Settled s)
    {i : Nat} {caller caller' : Caller} (found : s.callers[i]? = some caller) (same : caller'.call = caller.call)
    {pending : PendingCalls}
    (others : ∀ key, key ≠ caller.call.correlation_id → pending.lookup key = s.pending.lookup key)
    (own : ∀ ending, caller'.pc = .returned ending → pending.lookup caller.call.correlation_id = none) :
    Settled ({ s with pending := pending }.put i caller') := by
  intro j other at_ ending returned
  have inside : i < s.callers.length := (List.getElem?_eq_some_iff.mp found).1
  simp only [Client.put] at at_ ⊢
  by_cases here : i = j
  · subst here
    rw [List.getElem?_set_self inside] at at_
    cases at_
    rw [same]
    exact own ending returned
  · rw [List.getElem?_set_ne here] at at_
    have apart : other.call.correlation_id ≠ caller.call.correlation_id :=
      fun equal => here (same_caller sound distinct at_ found equal).symm
    rw [others _ apart]
    exact settled j other at_ ending returned

/-- A step that moves no caller and enters nothing. -/
theorem settled_shrinks (settled : Settled s)
    (callers : ∀ (j : Nat) caller', s'.callers[j]? = some caller' → ∃ caller, s.callers[j]? = some caller ∧
      caller'.call = caller.call ∧ caller'.pc = caller.pc)
    (shrinks : ∀ key, s.pending.lookup key = none → s'.pending.lookup key = none) : Settled s' := by
  intro j caller' at_ ending returned
  obtain ⟨caller,before,call,pc⟩ := callers j caller' at_
  rw [call]
  exact shrinks _ (settled j caller before ending (pc.symm.trans returned))

theorem tx_send_callers (s : Client) (tx : Nat) (payload : Bytes) (j : Nat) (caller' : Caller)
    (found : (s.tx_send tx payload).callers[j]? = some caller') :
    ∃ caller, s.callers[j]? = some caller ∧ caller'.call = caller.call ∧ caller'.pc = caller.pc := by
  rw [Client.tx_send,List.getElem?_modify,Option.map_eq_map,Option.map_eq_some_iff] at found
  obtain ⟨caller,before,same⟩ := found
  refine ⟨caller,before,?_⟩
  split at same
  · split at same <;> cases same <;> exact ⟨rfl,rfl⟩
  · cases same
    exact ⟨rfl,rfl⟩

theorem erase_shrinks {pending : PendingCalls} (id : Uuid) (key : Uuid) (absent : pending.lookup key = none) :
    (pending.erase id).lookup key = none := by
  rw [Dict.lookup_erase_ite]
  split
  · rfl
  · exact absent

theorem settled_advance_iff (sound : Sound calls s) (distinct : (calls.map (·.correlation_id)).Nodup)
    (settled : Settled s) {i : Nat} {caller : Caller} {act : Act} (found : s.callers[i]? = some caller)
    (stepped : s.advance i caller act = some s') : Settled s' ↔ sendsCleared s (.call i act) = true := by
  have unmoved : ∀ caller', caller'.call = caller.call →
      (∀ ending, caller'.pc = .returned ending → s.pending.lookup caller.call.correlation_id = none) →
      Settled (s.put i caller') :=
    fun caller' same own => settled_put sound distinct settled found same (fun _ _ => rfl) own
  unfold Client.advance at stepped
  split at stepped
  · next start =>
    split at stepped
    · cases stepped
      refine iff_of_true (unmoved _ rfl fun _ _ => ?_) rfl
      exact unstarted_unentered sound distinct found start
    · split at stepped
      · cases stepped
        refine iff_of_true (settled_put sound distinct settled found ?_ (fun key other => ?_) (fun _ busy => ?_)) rfl
        · rfl
        · exact AList.lookup_insert_ne other
        · cases busy
      · cases stepped
  · split at stepped
    · cases stepped
      exact iff_of_true (unmoved _ rfl (fun _ busy => by cases busy)) rfl
    · next e =>
      cases stepped
      simp only [sendsCleared,found,Option.all_some,Option.isNone_iff_eq_none]
      constructor
      · intro after
        have inside : i < s.callers.length := (List.getElem?_eq_some_iff.mp found).1
        exact after i { caller with pc := .returned (.unsent e),rx := false } (List.getElem?_set_self inside)
          (.unsent e) rfl
      · intro cleared
        exact unmoved _ rfl (fun _ _ => cleared)
  · split at stepped
    · next payload rest received =>
      cases stepped
      refine iff_of_true (unmoved _ rfl fun _ _ => ?_) rfl
      exact senderless_unentered sound distinct found (received_senderless sound found (by rw [received]; simp))
    · split at stepped
      · cases stepped
      · next unsent =>
        cases stepped
        refine iff_of_true (unmoved _ rfl fun _ _ => ?_) rfl
        refine senderless_unentered sound distinct found (fun entry listed own => unsent ?_)
        simp only [Client.has_sender,Bool.or_eq_true,List.any_eq_true]
        exact .inl ⟨entry,listed,by simp [own]⟩
  · split at stepped
    · cases stepped
      exact iff_of_true (unmoved _ rfl (fun _ busy => by cases busy)) rfl
    · cases stepped
  · cases stepped
    exact iff_of_true (unmoved _ rfl (fun _ busy => by cases busy)) rfl
  · split at stepped
    · cases stepped
      refine iff_of_true (settled_put sound distinct settled found ?_ (fun key other => ?_) (fun _ _ => ?_)) rfl
      · rfl
      · exact AList.lookup_erase_ne other
      · exact AList.lookup_erase _ _
    · cases stepped
  · cases stepped

/-- A step leaves the calls that have returned without entries exactly when no
    failed send finds one. -/
theorem settled_step_iff (sound : Sound calls s) (distinct : (calls.map (·.correlation_id)).Nodup)
    (settled : Settled s) {label : Label} (stepped : s.step explain label = some s') :
    Settled s' ↔ sendsCleared s label = true := by
  have same : ∀ (j : Nat) caller', s.callers[j]? = some caller' → ∃ caller, s.callers[j]? = some caller ∧
      caller'.call = caller.call ∧ caller'.pc = caller.pc := fun _ caller found => ⟨caller,found,rfl,rfl⟩
  cases step_turn stepped with
  | call found advanced => exact settled_advance_iff sound distinct settled found advanced
  | tick | undecodable | read_clock | collect | unlock => exact iff_of_true settled rfl
  | respond | skip => exact iff_of_true (settled_shrinks settled same (erase_shrinks _)) rfl
  | deliver => exact iff_of_true (settled_shrinks settled (tx_send_callers _ _ _) (fun _ absent => absent)) rfl
  | clean => exact iff_of_true (settled_shrinks settled (tx_send_callers _ _ _) (erase_shrinks _)) rfl

/-! ## Every run -/

/-- The step of a call acts on its own id, if on any. -/
theorem subject_own {i : Nat} {caller : Caller} {act : Act} (found : s.callers[i]? = some caller) {key : Uuid}
    (other : key ≠ caller.call.correlation_id) : subject s (.call i act) ≠ some key := by
  cases act with
  | register | remove =>
    simp only [subject,found,Option.map_some,ne_eq,Option.some.injEq]
    exact fun same => other same.symm
  | send | poll | elapse | drop => simp [subject]

theorem tidy_iff (sound : Sound calls s) : Tidy explain s ↔ Settled s := by
  constructor
  · intro tidy i caller found
    exact tidy.settled caller (List.mem_of_getElem? found)
  · intro settled
    refine ⟨fun caller member => ?_,fun i caller act s' found stepped key other => ?_⟩
    · obtain ⟨i,found⟩ := List.mem_iff_getElem?.mp member
      exact settled i caller found
    · exact ((step_turn stepped).effect sound.unstarted).frame key (subject_own found other)

theorem settled_init (calls : List Call) : Settled (.init calls) := by
  intro i caller found ending returned
  rw [Client.init,List.getElem?_map,Option.map_eq_some_iff] at found
  obtain ⟨call,-,rfl⟩ := found
  cases returned

/-- Over any run of calls with distinct ids a call that has returned has no entry
    in the table, exactly when every send that fails finds the entry of its call
    removed already. -/
theorem finished_calls_tidy_iff (explain : Wire → Bytes → String) (calls : List Call)
    (distinct : (calls.map (·.correlation_id)).Nodup) (labels : List Label) :
    Along (Client.step explain) (Tidy explain) (.init calls) labels ↔
      AllMeet (Client.step explain) (fun s label => sendsCleared s label = true) (.init calls) labels := by
  have keeps : ∀ s label s', Sound calls s → Client.step explain s label = some s' → Sound calls s' :=
    fun _ _ _ sound stepped => sound_step sound stepped
  refine along_iff keeps ?_ (sound_init calls)
    ((tidy_iff (sound_init calls)).mpr (settled_init calls)) labels
  intro s label s' sound tidy stepped
  rw [tidy_iff (sound_step sound stepped)]
  exact settled_step_iff sound distinct ((tidy_iff sound).mp tidy) stepped

end

/-- The first call is answered, the second one times out, and the third one's
    target is unknown after a cleanup has removed its entry. -/
def threeCalls : List Call :=
  pairOfCalls ++ [{ correlation_id := 3,timeout := 0,envelope := .ok [] }]

def allEndings : List Label :=
  [.call 2 .register,.read_clock,.collect 0,.clean 0,.unlock,.call 2 (.send (.error "actor not found"))] ++ contested

theorem finished_calls_tidy_endings :
    Along (Client.step (fun _ _ => "")) (Tidy (fun _ _ => "")) (.init threeCalls) allEndings := by
  refine (finished_calls_tidy_iff (fun _ _ => "") threeCalls (by decide) allEndings).mpr ?_
  exact allMeet_checked (by decide +kernel)

/-- A call whose target is unknown returns and leaves its entry. -/
def unknownTarget : List Label := [.call 0 .register,.call 0 (.send (.error "actor not found"))]

theorem failed_send_leaves_entry :
    ¬ Along (Client.step (fun _ _ => "")) (Tidy (fun _ _ => "")) (.init pairOfCalls) unknownTarget := by
  intro along
  have seen : (run (Client.step (fun _ _ => "")) (.init pairOfCalls) unknownTarget).map (fun s =>
      s.callers[0]?.map (fun caller => (caller.pc,(s.pending.lookup caller.call.correlation_id).isSome))) =
      some (some (.returned (.unsent "actor not found"),true)) := by decide +kernel
  obtain ⟨s,runs,same⟩ := Option.map_eq_some_iff.mp seen
  obtain ⟨caller,found,state⟩ := Option.map_eq_some_iff.mp same
  simp only [Prod.mk.injEq] at state
  have none := (along.last runs).settled caller (List.mem_of_getElem? found) _ state.1
  rw [none] at state
  cases state.2

end ActorKit.RpcLeftovers
