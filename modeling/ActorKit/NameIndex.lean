import ActorKit.RegistrySteps
import Mathlib.Logic.Function.Basic

/-!
# The name index of the registry

`unregister` removes an entry before it takes the lock of `by_name`, so between
the two the name is carried by the thread and not by an entry. Every name has at
most one carrier, and `by_name` maps it to the id of its carrier.
-/

namespace ActorKit.NameIndex
open ActorKit.registry

/-- Whether a thread holds the lock of `by_name`. -/
def holds : Pc → Bool
  | .test_id .. | .test_name .. | .insert_id .. | .insert_name .. | .unlock _ | .remove_name .. | .unlock_name => true
  | _ => false

/-- The name and the id of an entry whose unregistration is in progress. -/
def owns : Pc → Option (String × ActorId)
  | .lock_name id name | .remove_name id name => some (name,id)
  | _ => none

/-- The mapping a registration is about to insert. -/
def pending : Pc → Option (String × ActorId)
  | .insert_name id (some name) => some (name,id)
  | _ => none

/-- The id a registration has found to be free. -/
def freeId : Pc → Option ActorId
  | .test_name id _ | .insert_id id _ => some id
  | _ => none

/-- The name a registration has found to be free. -/
def freeName : Pc → Option String
  | .insert_id _ name | .insert_name _ name => name
  | _ => none

/-- Who carries a name for an id: the entry of the id, or the thread that is
    unregistering it. -/
def Carries (r : ActorRegistry) (pcs : Nat → Pc) (name : String) (id : ActorId) : Option Nat → Prop
  | none => (r.by_id.lookup id).map (·.name) = some (some name)
  | some t => owns (pcs t) = some (name,id)

structure Consistent (r : ActorRegistry) (lock : Option Nat) (pcs : Nat → Pc) : Prop where
  lock : ∀ t, lock = some t ↔ holds (pcs t) = true
  unique : ∀ name id id' who who', Carries r pcs name id who → Carries r pcs name id' who' → id = id' ∧ who = who'
  indexed : ∀ name id, r.by_name.lookup name = some id → ∃ who, Carries r pcs name id who
  carried : ∀ name id who, Carries r pcs name id who →
    r.by_name.lookup name = some id ∨ ∃ t, pending (pcs t) = some (name,id)
  expected : ∀ t name id, pending (pcs t) = some (name,id) → ∃ who, Carries r pcs name id who
  ids : ∀ t id, freeId (pcs t) = some id → r.by_id.lookup id = none
  names : ∀ t name, freeName (pcs t) = some name → r.by_name.lookup name = none

section
variable {r r' : ActorRegistry} {lock lock' : Option Nat} {pcs : Nat → Pc} {t : Nat} {pc : Pc}

/-! ## The lock -/

theorem lock_kept (held : ∀ u, lock = some u ↔ holds (pcs u) = true) (same : holds pc = holds (pcs t)) (u : Nat) :
    lock = some u ↔ holds (Function.update pcs t pc u) = true := by
  by_cases equal : u = t
  · subst equal
    rw [Function.update_self,same]
    exact held u
  · rw [Function.update_of_ne equal]
    exact held u

theorem lock_taken (free : ∀ u, none = some u ↔ holds (pcs u) = true) (holding : holds pc = true) (u : Nat) :
    some t = some u ↔ holds (Function.update pcs t pc u) = true := by
  by_cases equal : u = t
  · subst equal
    simp [holding]
  · rw [Function.update_of_ne equal,← free u]
    simp [Ne.symm equal]

theorem lock_dropped (held : ∀ u, lock = some u ↔ holds (pcs u) = true) (holding : holds (pcs t) = true)
    (done : holds pc = false) (u : Nat) : none = some u ↔ holds (Function.update pcs t pc u) = true := by
  have mine := (held t).mpr holding
  by_cases equal : u = t
  · subst equal
    simp [done]
  · rw [Function.update_of_ne equal,← held u,mine]
    simp [Ne.symm equal]

/-- The checks and the pending mapping belong to the holder of the lock. -/
theorem holds_of_pending {x : String × ActorId} (some : pending pc = some x) : holds pc = true := by
  cases pc <;> simp_all [pending,holds]

theorem holds_of_freeId {x : ActorId} (some : freeId pc = some x) : holds pc = true := by
  cases pc <;> simp_all [freeId,holds]

theorem holds_of_freeName {x : String} (some : freeName pc = some x) : holds pc = true := by
  cases pc <;> simp_all [freeName,holds]

theorem Consistent.alone (inv : Consistent r lock pcs) {u : Nat} (mine : holds (pcs t) = true)
    (other : holds (pcs u) = true) : u = t := by
  have first := (inv.lock t).mpr mine
  rw [(inv.lock u).mpr other] at first
  exact Option.some.inj first

/-! ## Steps that leave the carriers alone -/

/-- A step of thread `t` that changes neither map, as far as names go, nor what
    the thread carries. -/
theorem Consistent.quiet (inv : Consistent r lock pcs)
    (sameEntries : ∀ id name, (r'.by_id.lookup id).map (·.name) = some (some name) ↔
      (r.by_id.lookup id).map (·.name) = some (some name))
    (absent : ∀ id, r.by_id.lookup id = none → r'.by_id.lookup id = none)
    (sameNames : r'.by_name = r.by_name) (held : ∀ u, lock' = some u ↔ holds (Function.update pcs t pc u) = true)
    (sameOwner : owns pc = owns (pcs t)) (before : pending (pcs t) = none) (after : ∀ x, pending pc = some x → False)
    (free : ∀ id, freeId pc = some id → r.by_id.lookup id = none)
    (unused : ∀ name, freeName pc = some name → r.by_name.lookup name = none) :
    Consistent r' lock' (Function.update pcs t pc) := by
  have carries : ∀ name id who, Carries r' (Function.update pcs t pc) name id who ↔ Carries r pcs name id who := by
    intro name id who
    cases who with
    | none => exact sameEntries id name
    | some u =>
      simp only [Carries]
      by_cases equal : u = t
      · subst equal
        rw [Function.update_self,sameOwner]
      · rw [Function.update_of_ne equal]
  have waits : ∀ u x, pending (Function.update pcs t pc u) = some x ↔ pending (pcs u) = some x := by
    intro u x
    by_cases equal : u = t
    · subst equal
      rw [Function.update_self,before]
      exact ⟨fun some => (after x some).elim,fun none => by cases none⟩
    · rw [Function.update_of_ne equal]
  refine ⟨held,?_,?_,?_,?_,?_,?_⟩
  · intro name id id' who who' first second
    exact inv.unique name id id' who who' ((carries ..).mp first) ((carries ..).mp second)
  · intro name id found
    rw [sameNames] at found
    obtain ⟨who,carrier⟩ := inv.indexed name id found
    exact ⟨who,(carries ..).mpr carrier⟩
  · intro name id who carrier
    rw [sameNames]
    rcases inv.carried name id who ((carries ..).mp carrier) with listed | ⟨u,next⟩
    · exact .inl listed
    · exact .inr ⟨u,(waits ..).mpr next⟩
  · intro u name id next
    obtain ⟨who,carrier⟩ := inv.expected u name id ((waits ..).mp next)
    exact ⟨who,(carries ..).mpr carrier⟩
  · intro u id checked
    by_cases equal : u = t
    · subst equal
      rw [Function.update_self] at checked
      exact absent id (free id checked)
    · rw [Function.update_of_ne equal] at checked
      exact absent id (inv.ids u id checked)
  · intro u name checked
    rw [sameNames]
    by_cases equal : u = t
    · subst equal
      rw [Function.update_self] at checked
      exact unused name checked
    · rw [Function.update_of_ne equal] at checked
      exact inv.names u name checked

/-- A step of thread `t` that changes nothing shared but the lock. -/
theorem Consistent.moved (inv : Consistent r lock pcs)
    (held : ∀ u, lock' = some u ↔ holds (Function.update pcs t pc u) = true) (sameOwner : owns pc = owns (pcs t))
    (before : pending (pcs t) = none) (after : pending pc = none)
    (free : ∀ id, freeId pc = some id → r.by_id.lookup id = none)
    (unused : ∀ name, freeName pc = some name → r.by_name.lookup name = none) :
    Consistent r lock' (Function.update pcs t pc) :=
  inv.quiet (fun _ _ => Iff.rfl) (fun _ none => none) rfl held sameOwner before (fun x next => by rw [after] at next; cases next) free unused

/-! ## Steps that move a carrier -/

/-- No other thread is past the checks of a registration while `t` holds the
    lock. -/
theorem Consistent.others (inv : Consistent r lock pcs) (mine : holds (pcs t) = true) {u : Nat} (apart : u ≠ t) :
    pending (pcs u) = none ∧ freeId (pcs u) = none ∧ freeName (pcs u) = none := by
  have idle : holds (pcs u) ≠ true := fun other => apart (inv.alone mine other)
  refine ⟨?_,?_,?_⟩
  · by_contra some
    obtain ⟨x,some⟩ := Option.ne_none_iff_exists'.mp some
    exact idle (holds_of_pending some)
  · by_contra some
    obtain ⟨x,some⟩ := Option.ne_none_iff_exists'.mp some
    exact idle (holds_of_freeId some)
  · by_contra some
    obtain ⟨x,some⟩ := Option.ne_none_iff_exists'.mp some
    exact idle (holds_of_freeName some)

/-- What is carried is listed, unless the holder of the lock is about to list it. -/
theorem Consistent.carried_listed (inv : Consistent r lock pcs) (mine : holds (pcs t) = true)
    (before : pending (pcs t) = none) {n : String} {i : ActorId} {who : Option Nat} (carrier : Carries r pcs n i who) :
    r.by_name.lookup n = some i := by
  rcases inv.carried n i who carrier with listed | ⟨u,next⟩
  · exact listed
  · by_cases equal : u = t
    · subst equal
      rw [before] at next
      cases next
    · rw [(inv.others mine equal).1] at next
      cases next

/-- The holder of the lock goes on to a point where nothing is checked or pending. -/
theorem Consistent.finished (inv : Consistent r lock pcs) (mine : holds (pcs t) = true)
    (done : pending pc = none ∧ freeId pc = none ∧ freeName pc = none) (u : Nat) :
    pending (Function.update pcs t pc u) = none ∧ freeId (Function.update pcs t pc u) = none ∧
      freeName (Function.update pcs t pc u) = none := by
  by_cases equal : u = t
  · subst equal
    rw [Function.update_self]
    exact done
  · rw [Function.update_of_ne equal]
    exact inv.others mine equal

/-- The new entry of a registration carries its name. -/
theorem Consistent.entered (inv : Consistent r lock pcs) {id : ActorId} {name : Option String}
    (here : pcs t = .insert_id id name)
    (by_id : r'.by_id = r.by_id.insert id { name }) (by_name : r'.by_name = r.by_name) :
    Consistent r' lock (Function.update pcs t (.insert_name id name)) := by
  have mine : holds (pcs t) = true := by rw [here]; rfl
  have before : pending (pcs t) = none := by rw [here]; rfl
  have vacant : r.by_id.lookup id = none := inv.ids t id (by rw [here]; rfl)
  have unused : ∀ n, name = some n → r.by_name.lookup n = none := by
    rintro n rfl
    exact inv.names t n (by rw [here]; rfl)
  have uncarried : ∀ n, name = some n → ∀ other who, ¬ Carries r pcs n other who := by
    intro n same other who carrier
    have listed := inv.carried_listed mine before carrier
    rw [unused n same] at listed
    cases listed
  -- The carriers are the old ones and the new entry.
  have old : ∀ n other who, Carries r pcs n other who → Carries r' (Function.update pcs t (.insert_name id name)) n other who := by
    intro n other who carrier
    cases who with
    | none =>
      simp only [Carries] at carrier ⊢
      have apart : other ≠ id := by
        rintro rfl
        rw [vacant] at carrier
        cases carrier
      rw [by_id,Dict.lookup_insert_ite,if_neg apart]
      exact carrier
    | some u =>
      simp only [Carries] at carrier ⊢
      have apart : u ≠ t := by
        rintro rfl
        rw [here] at carrier
        cases carrier
      rw [Function.update_of_ne apart]
      exact carrier
  have new : ∀ n other who, Carries r' (Function.update pcs t (.insert_name id name)) n other who →
      Carries r pcs n other who ∨ other = id ∧ who = none ∧ name = some n := by
    intro n other who carrier
    cases who with
    | none =>
      simp only [Carries,by_id,Dict.lookup_insert_ite] at carrier
      by_cases equal : other = id
      · simp only [equal,if_true,Option.map_some,Option.some.injEq] at carrier
        exact .inr ⟨equal,rfl,carrier⟩
      · rw [if_neg equal] at carrier
        exact .inl carrier
    | some u =>
      simp only [Carries] at carrier ⊢
      by_cases equal : u = t
      · subst equal
        rw [Function.update_self] at carrier
        cases carrier
      · rw [Function.update_of_ne equal] at carrier
        exact .inl carrier
  refine ⟨lock_kept inv.lock (by rw [here]; rfl),?_,?_,?_,?_,?_,?_⟩
  · intro n i i' who who' first second
    rcases new n i who first with known | ⟨here₁,now₁,named⟩ <;>
      rcases new n i' who' second with known' | ⟨here₂,now₂,named'⟩
    · exact inv.unique n i i' who who' known known'
    · exact (uncarried n named' i who known).elim
    · exact (uncarried n named i' who' known').elim
    · exact ⟨here₁.trans here₂.symm,now₁.trans now₂.symm⟩
  · intro n i found
    rw [by_name] at found
    obtain ⟨who,carrier⟩ := inv.indexed n i found
    exact ⟨who,old n i who carrier⟩
  · intro n i who carrier
    rw [by_name]
    rcases new n i who carrier with carrier | ⟨rfl,rfl,rfl⟩
    · exact .inl (inv.carried_listed mine before carrier)
    · exact .inr ⟨t,by rw [Function.update_self]; rfl⟩
  · intro u n i next
    by_cases equal : u = t
    · subst equal
      rw [Function.update_self] at next
      cases name with
      | none => cases next
      | some m =>
        cases next
        exact ⟨none,by simp [Carries,by_id]⟩
    · rw [Function.update_of_ne equal,(inv.others mine equal).1] at next
      cases next
  · intro u other checked
    by_cases equal : u = t
    · subst equal
      rw [Function.update_self] at checked
      cases checked
    · rw [Function.update_of_ne equal,(inv.others mine equal).2.1] at checked
      cases checked
  · intro u n checked
    rw [by_name]
    by_cases equal : u = t
    · subst equal
      rw [Function.update_self] at checked
      exact unused n checked
    · rw [Function.update_of_ne equal,(inv.others mine equal).2.2] at checked
      cases checked

/-- The name of the new entry enters the index. -/
theorem Consistent.listed (inv : Consistent r lock pcs) {id : ActorId} {name : String}
    (here : pcs t = .insert_name id (some name))
    (by_id : r'.by_id = r.by_id) (by_name : r'.by_name = r.by_name.insert name id) (result : Except Error Unit) :
    Consistent r' lock (Function.update pcs t (.unlock result)) := by
  have mine : holds (pcs t) = true := by rw [here]; rfl
  have unused : r.by_name.lookup name = none := inv.names t name (by rw [here]; rfl)
  have carries : ∀ n i who, Carries r' (Function.update pcs t (.unlock result)) n i who ↔ Carries r pcs n i who := by
    intro n i who
    cases who with
    | none => simp only [Carries,by_id]
    | some u =>
      simp only [Carries]
      by_cases equal : u = t
      · subst equal
        rw [Function.update_self,here]
        exact Iff.rfl
      · rw [Function.update_of_ne equal]
  have later : ∀ u, pending (Function.update pcs t (.unlock result) u) = none ∧
      freeId (Function.update pcs t (.unlock result) u) = none ∧
      freeName (Function.update pcs t (.unlock result) u) = none := inv.finished mine ⟨rfl,rfl,rfl⟩
  refine ⟨lock_kept inv.lock (by rw [here]; rfl),?_,?_,?_,?_,?_,?_⟩
  · intro n i i' who who' first second
    exact inv.unique n i i' who who' ((carries ..).mp first) ((carries ..).mp second)
  · intro n i found
    rw [by_name,Dict.lookup_insert_ite] at found
    by_cases equal : n = name
    · subst equal
      rw [if_pos rfl] at found
      cases found
      obtain ⟨who,carrier⟩ := inv.expected t n id (by rw [here]; rfl)
      exact ⟨who,(carries ..).mpr carrier⟩
    · rw [if_neg equal] at found
      obtain ⟨who,carrier⟩ := inv.indexed n i found
      exact ⟨who,(carries ..).mpr carrier⟩
  · intro n i who carrier
    left
    rw [by_name,Dict.lookup_insert_ite]
    rcases inv.carried n i who ((carries ..).mp carrier) with listed | ⟨u,next⟩
    · have apart : n ≠ name := by
        rintro rfl
        rw [unused] at listed
        cases listed
      rw [if_neg apart]
      exact listed
    · by_cases equal : u = t
      · subst equal
        rw [here] at next
        cases next
        rw [if_pos rfl]
      · rw [(inv.others mine equal).1] at next
        cases next
  · intro u n i next
    rw [(later u).1] at next
    cases next
  · intro u i checked
    rw [(later u).2.1] at checked
    cases checked
  · intro u n checked
    rw [(later u).2.2] at checked
    cases checked

/-- An entry is removed; the thread that removed it carries its name. -/
theorem Consistent.removed (inv : Consistent r lock pcs) {id : ActorId} {entry : ActorEntry} {name : String}
    (here : pcs t = .remove_id id) (found : r.by_id.lookup id = some entry) (named : entry.name = some name)
    (by_id : r'.by_id = r.by_id.erase id) (by_name : r'.by_name = r.by_name) :
    Consistent r' lock (Function.update pcs t (.lock_name id name)) := by
  -- The entry of `id` hands its name to thread `t`; every other carrier stays.
  have old : ∀ n i who, Carries r pcs n i who →
      ∃ who', Carries r' (Function.update pcs t (.lock_name id name)) n i who' := by
    intro n i who carrier
    cases who with
    | none =>
      simp only [Carries] at carrier
      by_cases equal : i = id
      · subst equal
        rw [found] at carrier
        have same : entry.name = some n := Option.some.inj carrier
        rw [named] at same
        cases same
        exact ⟨some t,by simp [Carries,owns]⟩
      · exact ⟨none,by simpa [Carries,by_id,Dict.lookup_erase_ite,equal] using carrier⟩
    | some u =>
      simp only [Carries] at carrier
      have apart : u ≠ t := by
        rintro rfl
        rw [here] at carrier
        cases carrier
      exact ⟨some u,by simpa [Carries,apart] using carrier⟩
  have back : ∀ n i who, Carries r' (Function.update pcs t (.lock_name id name)) n i who →
      (who = some t ∧ i = id ∧ Carries r pcs n i none) ∨ (who ≠ some t ∧ (who = none → i ≠ id) ∧ Carries r pcs n i who) := by
    intro n i who carrier
    cases who with
    | none =>
      simp only [Carries,by_id,Dict.lookup_erase_ite] at carrier
      by_cases equal : i = id
      · rw [if_pos equal] at carrier
        cases carrier
      · rw [if_neg equal] at carrier
        exact .inr ⟨by simp,fun _ => equal,carrier⟩
    | some u =>
      simp only [Carries] at carrier
      by_cases equal : u = t
      · subst equal
        rw [Function.update_self] at carrier
        cases carrier
        exact .inl ⟨rfl,rfl,by simp [Carries,found,named]⟩
      · rw [Function.update_of_ne equal] at carrier
        exact .inr ⟨by simpa using equal,(fun none => by cases none),carrier⟩
  have waits : ∀ u x, pending (Function.update pcs t (.lock_name id name) u) = some x ↔ pending (pcs u) = some x := by
    intro u x
    by_cases equal : u = t
    · subst equal
      rw [Function.update_self,here]
      exact Iff.rfl
    · rw [Function.update_of_ne equal]
  refine ⟨lock_kept inv.lock (by rw [here]; rfl),?_,?_,?_,?_,?_,?_⟩
  · intro n i i' who who' first second
    rcases back n i who first with ⟨now₁,here₁,known⟩ | ⟨-,kept,known⟩ <;>
      rcases back n i' who' second with ⟨now₂,here₂,known'⟩ | ⟨-,kept',known'⟩
    · exact ⟨here₁.trans here₂.symm,now₁.trans now₂.symm⟩
    · obtain ⟨same,none⟩ := inv.unique n _ _ _ _ known known'
      exact absurd (same.symm.trans here₁) (kept' none.symm)
    · obtain ⟨same,none⟩ := inv.unique n _ _ _ _ known known'
      exact absurd (same.trans here₂) (kept none)
    · exact inv.unique n _ _ _ _ known known'
  · intro n i listed
    rw [by_name] at listed
    obtain ⟨who,carrier⟩ := inv.indexed n i listed
    exact old n i who carrier
  · intro n i who carrier
    rw [by_name]
    have before : ∃ who₀, Carries r pcs n i who₀ := by
      rcases back n i who carrier with ⟨-,-,carrier⟩ | ⟨-,-,carrier⟩
      · exact ⟨none,carrier⟩
      · exact ⟨who,carrier⟩
    obtain ⟨who₀,carrier₀⟩ := before
    rcases inv.carried n i who₀ carrier₀ with listed | ⟨u,next⟩
    · exact .inl listed
    · exact .inr ⟨u,(waits ..).mpr next⟩
  · intro u n i next
    obtain ⟨who,carrier⟩ := inv.expected u n i ((waits ..).mp next)
    exact old n i who carrier
  · intro u i checked
    rw [by_id,Dict.lookup_erase_ite]
    by_cases equal : u = t
    · subst equal
      rw [Function.update_self] at checked
      cases checked
    · rw [Function.update_of_ne equal] at checked
      rw [inv.ids u i checked]
      simp
  · intro u n checked
    rw [by_name]
    by_cases equal : u = t
    · subst equal
      rw [Function.update_self] at checked
      cases checked
    · rw [Function.update_of_ne equal] at checked
      exact inv.names u n checked

/-- The thread that carries a name takes it out of the index. -/
theorem Consistent.unlisted (inv : Consistent r lock pcs) {id : ActorId} {name : String}
    (here : pcs t = .remove_name id name) (by_id : r'.by_id = r.by_id) (by_name : r'.by_name = r.by_name.erase name) :
    Consistent r' lock (Function.update pcs t .unlock_name) := by
  have mine : holds (pcs t) = true := by rw [here]; rfl
  have self : Carries r pcs name id (some t) := by simp [Carries,here,owns]
  have carries : ∀ n i who, Carries r' (Function.update pcs t .unlock_name) n i who ↔
      Carries r pcs n i who ∧ who ≠ some t := by
    intro n i who
    cases who with
    | none => simp [Carries,by_id]
    | some u =>
      simp only [Carries]
      by_cases equal : u = t
      · subst equal
        rw [Function.update_self]
        simp [owns]
      · rw [Function.update_of_ne equal]
        simp [equal]
  have before : pending (pcs t) = none := by rw [here]; rfl
  have later : ∀ u, pending (Function.update pcs t .unlock_name u) = none ∧ freeId (Function.update pcs t .unlock_name u) = none ∧
      freeName (Function.update pcs t .unlock_name u) = none := inv.finished mine ⟨rfl,rfl,rfl⟩
  refine ⟨lock_kept inv.lock (by rw [here]; rfl),?_,?_,?_,?_,?_,?_⟩
  · intro n i i' who who' first second
    exact inv.unique n i i' who who' ((carries ..).mp first).1 ((carries ..).mp second).1
  · intro n i listed
    rw [by_name,Dict.lookup_erase_ite] at listed
    by_cases equal : n = name
    · rw [if_pos equal] at listed
      cases listed
    · rw [if_neg equal] at listed
      obtain ⟨who,carrier⟩ := inv.indexed n i listed
      refine ⟨who,(carries ..).mpr ⟨carrier,?_⟩⟩
      rintro rfl
      simp only [Carries,here,owns,Option.some.injEq,Prod.mk.injEq] at carrier
      exact equal carrier.1.symm
  · intro n i who carrier
    obtain ⟨carrier,other⟩ := (carries ..).mp carrier
    have apart : n ≠ name := by
      rintro rfl
      exact other (inv.unique n i id who (some t) carrier self).2
    rw [by_name,Dict.lookup_erase_ite,if_neg apart]
    exact .inl (inv.carried_listed mine before carrier)
  · intro u n i next
    rw [(later u).1] at next
    cases next
  · intro u i checked
    rw [(later u).2.1] at checked
    cases checked
  · intro u n checked
    rw [(later u).2.2] at checked
    cases checked

/-! ## All steps -/

theorem set_state_names (r : ActorRegistry) (id : ActorId) (state : ActorState) :
    (r.set_state id state).1.by_name = r.by_name ∧
      ∀ other, ((r.set_state id state).1.by_id.lookup other).map (·.name) = (r.by_id.lookup other).map (·.name) := by
  unfold ActorRegistry.set_state
  split
  · refine ⟨rfl,fun other => ?_⟩
    rw [Dict.lookup_modify]
    split
    · rw [Option.map_map]
      rfl
    · rfl
  · exact ⟨rfl,fun _ => rfl⟩

/-- Every access keeps the index consistent. -/
theorem advance_consistent (inv : Consistent r lock pcs) {call : RegistryCall} {pc : Pc} (here : pcs t = pc) {pc' : Pc}
    (advanced : pc.advance r lock t call = some (r',lock',pc')) : Consistent r' lock' (Function.update pcs t pc') := by
  have nothing : ∀ {α : Type} {P : Prop} {x : α}, (none : Option α) = some x → P := fun same => by cases same
  cases pc with
  | idle =>
    cases advanced
    have shape : ∀ call, holds (.begin call) = false ∧ owns (.begin call) = none ∧ pending (.begin call) = none ∧
        freeId (.begin call) = none ∧ freeName (.begin call) = none := by
      intro call
      cases call <;> exact ⟨rfl,rfl,rfl,rfl,rfl⟩
    obtain ⟨free,owner,next,id,name⟩ := shape call
    exact inv.moved (lock_kept inv.lock (by rw [here,free]; rfl)) (by rw [here,owner]; rfl) (by rw [here]; rfl) next
      (by rw [id]; exact fun _ => nothing) (by rw [name]; exact fun _ => nothing)
  | lock id name =>
    cases free : lock with
    | some u => rw [free] at advanced; cases advanced
    | none =>
      rw [free] at advanced
      cases advanced
      have held := inv.lock
      rw [free] at held
      exact inv.moved (lock_taken held rfl) (by rw [here]; rfl) (by rw [here]; rfl) rfl (fun _ => nothing) (fun _ => nothing)
  | test_id id name =>
    simp only [Pc.advance] at advanced
    split at advanced
    · cases advanced
      exact inv.moved (lock_kept inv.lock (by rw [here]; rfl)) (by rw [here]; rfl) (by rw [here]; rfl) rfl
        (fun _ => nothing) (fun _ => nothing)
    · next absent =>
      cases advanced
      refine inv.moved (lock_kept inv.lock (by rw [here]; rfl)) (by rw [here]; rfl) (by rw [here]; rfl) rfl ?_
        (fun _ => nothing)
      intro other same
      cases same
      simpa using absent
  | test_name id name =>
    have vacant : r.by_id.lookup id = none := inv.ids t id (by rw [here]; rfl)
    have passed : (∀ n, name = some n → r.by_name.lookup n = none) →
        Consistent r lock (Function.update pcs t (.insert_id id name)) := by
      intro unused
      refine inv.moved (lock_kept inv.lock (by rw [here]; rfl)) (by rw [here]; rfl) (by rw [here]; rfl) rfl ?_ unused
      intro other same
      cases same
      exact vacant
    cases name with
    | none =>
      cases advanced
      exact passed (fun _ => nothing)
    | some actor_name =>
      simp only [Pc.advance] at advanced
      split at advanced
      · cases advanced
        exact inv.moved (lock_kept inv.lock (by rw [here]; rfl)) (by rw [here]; rfl) (by rw [here]; rfl) rfl
          (fun _ => nothing) (fun _ => nothing)
      · next absent =>
        cases advanced
        refine passed ?_
        intro n same
        cases same
        simpa using absent
  | insert_id id name =>
    have vacant : r.by_id.lookup id = none := inv.ids t id (by rw [here]; rfl)
    simp only [Pc.advance,vacant,Option.isSome_none,Bool.false_eq_true,if_false] at advanced
    cases advanced
    exact inv.entered here rfl rfl
  | insert_name id name =>
    cases name with
    | none =>
      cases advanced
      exact inv.moved (lock_kept inv.lock (by rw [here]; rfl)) (by rw [here]; rfl) (by rw [here]; rfl) rfl
        (fun _ => nothing) (fun _ => nothing)
    | some actor_name =>
      cases advanced
      refine inv.listed here ?_ ?_ (.ok ())
      · rfl
      · rfl
  | unlock result =>
    cases advanced
    exact inv.moved (lock_dropped inv.lock (by rw [here]; rfl) rfl) (by rw [here]; rfl) (by rw [here]; rfl) rfl
      (fun _ => nothing) (fun _ => nothing)
  | remove_id id =>
    simp only [Pc.advance] at advanced
    split at advanced
    · next entry found =>
      split at advanced
      · next name named =>
        cases advanced
        exact inv.removed here found named rfl rfl
      · next unnamed =>
        cases advanced
        refine inv.quiet ?_ ?_ rfl (lock_kept inv.lock (by rw [here]; rfl)) (by rw [here]; rfl) (by rw [here]; rfl)
          (fun _ => nothing) (fun _ => nothing) (fun _ => nothing)
        · intro other n
          rw [Dict.lookup_erase_ite]
          by_cases equal : other = id
          · subst equal
            rw [if_pos rfl,found,Option.map_some,unnamed]
            simp
          · rw [if_neg equal]
        · intro other absent
          rw [Dict.lookup_erase_ite,absent]
          simp
    · cases advanced
      exact inv.moved (lock_kept inv.lock (by rw [here]; rfl)) (by rw [here]; rfl) (by rw [here]; rfl) rfl
        (fun _ => nothing) (fun _ => nothing)
  | lock_name id name =>
    cases free : lock with
    | some u => rw [free] at advanced; cases advanced
    | none =>
      rw [free] at advanced
      cases advanced
      have held := inv.lock
      rw [free] at held
      exact inv.moved (lock_taken held rfl) (by rw [here]; rfl) (by rw [here]; rfl) rfl (fun _ => nothing) (fun _ => nothing)
  | remove_name id name =>
    cases advanced
    exact inv.unlisted here rfl rfl
  | unlock_name =>
    cases advanced
    exact inv.moved (lock_dropped inv.lock (by rw [here]; rfl) rfl) (by rw [here]; rfl) (by rw [here]; rfl) rfl
      (fun _ => nothing) (fun _ => nothing)
  | set_state id state =>
    cases advanced
    obtain ⟨sameNames,sameEntries⟩ := set_state_names r id state
    refine inv.quiet (fun other n => by rw [sameEntries]) ?_ sameNames (lock_kept inv.lock (by rw [here]; rfl))
      (by rw [here]; rfl) (by rw [here]; rfl) (fun _ => nothing) (fun _ => nothing) (fun _ => nothing)
    intro other absent
    have same := sameEntries other
    rw [absent] at same
    simpa using same
  | lookup name =>
    cases free : lock with
    | some u => rw [free] at advanced; cases advanced
    | none =>
      rw [free] at advanced
      cases advanced
      have held := inv.lock
      rw [free] at held
      exact inv.moved (lock_kept held (by rw [here]; rfl)) (by rw [here]; rfl) (by rw [here]; rfl) rfl
        (fun _ => nothing) (fun _ => nothing)

end

/-! ## Runs -/

/-- Where a thread is; one that does not exist is idle. -/
def pcsOf (s : Threads) (t : Nat) : Pc := (s.threads[t]?.map (·.pc)).getD .idle

/-- A registration that has changed nothing yet, or has failed. -/
def harmless : Pc → Bool
  | .lock .. | .test_id .. | .test_name .. | .insert_id .. => true
  | .unlock result => match result with
    | .error _ => true
    | .ok _ => false
  | _ => false

/-- The index is consistent, and no failed registration has changed a map. -/
structure Sound (s : Threads) : Prop where
  consistent : Consistent s.shared s.lock (pcsOf s)
  clean : ∀ (t : Nat) (thread : Thread), s.threads[t]? = some thread → harmless thread.pc = true → thread.changed = false

/-- What one step is. -/
theorem step_cases {s s' : Threads} {t : Nat} {call : RegistryCall} (stepped : s.step (t,call) = some s') :
    ∃ thread pc, s.threads[t]? = some thread ∧ thread.pc.advance s.shared s.lock t call = some (s'.shared,s'.lock,pc) ∧
      s'.threads = s.threads.set t { pc, changed := match thread.pc with
        | .idle => false
        | _ => thread.changed || differ s.shared s'.shared } := by
  unfold Threads.step at stepped
  obtain ⟨thread,found,rest⟩ := Option.bind_eq_some_iff.mp stepped
  obtain ⟨⟨shared,lock,pc⟩,advanced,rest⟩ := Option.bind_eq_some_iff.mp rest
  cases rest
  exact ⟨thread,pc,found,advanced,rfl⟩

theorem pcsOf_set {s s' : Threads} {t : Nat} {thread new : Thread} (found : s.threads[t]? = some thread)
    (threads : s'.threads = s.threads.set t new) : pcsOf s' = Function.update (pcsOf s) t new.pc := by
  have inside := (List.getElem?_eq_some_iff.mp found).1
  funext u
  by_cases equal : u = t
  · subst equal
    simp [pcsOf,threads,inside]
  · simp [pcsOf,threads,Ne.symm equal,equal]

/-- A registration that is still harmless after a step was so before it, and the
    step changed no map. -/
theorem harmless_step {r r' : ActorRegistry} {lock lock' : Option Nat} {t : Nat} {call : RegistryCall} {pc pc' : Pc}
    (advanced : pc.advance r lock t call = some (r',lock',pc')) (still : harmless pc' = true)
    (vacant : ∀ id, freeId pc = some id → r.by_id.lookup id = none) :
    pc = .idle ∨ harmless pc = true ∧ r' = r := by
  cases pc with
  | idle => exact .inl rfl
  | lock id name | test_id id name =>
    right
    simp only [Pc.advance] at advanced
    split at advanced <;> cases advanced <;> exact ⟨rfl,rfl⟩
  | test_name id name =>
    right
    cases name with
    | none => cases advanced; exact ⟨rfl,rfl⟩
    | some actor_name =>
      simp only [Pc.advance] at advanced
      split at advanced <;> cases advanced <;> exact ⟨rfl,rfl⟩
  | insert_id id name =>
    simp only [Pc.advance,vacant id rfl,Option.isSome_none,Bool.false_eq_true,if_false] at advanced
    cases advanced
    cases still
  | insert_name id name => cases name <;> cases advanced <;> cases still
  | unlock result | unlock_name | set_state id state | remove_name id name => cases advanced; cases still
  | remove_id id =>
    simp only [Pc.advance] at advanced
    split at advanced
    · split at advanced <;> cases advanced <;> cases still
    · cases advanced; cases still
  | lock_name id name | lookup name =>
    simp only [Pc.advance] at advanced
    split at advanced <;> cases advanced
    cases still

theorem differ_self (r : ActorRegistry) : differ r r = false := by
  simp [differ]

theorem sound_step {s s' : Threads} {label : Nat × RegistryCall} (sound : Sound s) (stepped : s.step label = some s') :
    Sound s' := by
  obtain ⟨t,call⟩ := label
  obtain ⟨thread,pc,found,advanced,threads⟩ := step_cases stepped
  have here : pcsOf s t = thread.pc := by
    simp [pcsOf,found]
  refine ⟨?_,fun u other at_ still => ?_⟩
  · rw [pcsOf_set found threads]
    exact advance_consistent sound.consistent here advanced
  · rw [threads] at at_
    by_cases equal : u = t
    · subst equal
      rw [List.getElem?_set_self (List.getElem?_eq_some_iff.mp found).1] at at_
      cases at_
      have vacant : ∀ id, freeId thread.pc = some id → s.shared.by_id.lookup id = none := by
        intro id checked
        exact sound.consistent.ids u id (by rw [here]; exact checked)
      rcases harmless_step advanced still vacant with idle | ⟨before,same⟩
      · simp [idle]
      · have clean := sound.clean u thread found before
        rw [same,differ_self,clean]
        cases thread.pc <;> rfl
    · rw [List.getElem?_set_ne (Ne.symm equal)] at at_
      exact sound.clean u other at_ still

theorem sound_init (config : mailbox.MailboxConfig) (n : Nat) : Sound (.init config n) := by
  have idle : pcsOf (.init config n) = fun _ => .idle := by
    funext t
    simp only [pcsOf,Threads.init,List.getElem?_replicate]
    split <;> rfl
  constructor
  · rw [idle]
    refine ⟨fun t => ?_,?_,?_,?_,?_,?_,?_⟩
    · simp [Threads.init,holds]
    · intro name id id' who who' carrier
      cases who with
      | none => simp [Carries,Threads.init,ActorRegistry.with_mailbox_config] at carrier
      | some t => cases carrier
    · intro name id found
      simp [Threads.init,ActorRegistry.with_mailbox_config] at found
    · intro name id who carrier
      cases who with
      | none => simp [Carries,Threads.init,ActorRegistry.with_mailbox_config] at carrier
      | some t => cases carrier
    · exact fun t name id next => by cases next
    · exact fun t id checked => by cases checked
    · exact fun t name checked => by cases checked
  · intro t thread found still
    simp only [Threads.init,List.getElem?_replicate] at found
    split at found <;> cases found
    cases still

/-- The entry of an id carries a name. -/
def Named (s : Threads) (name : String) (id : ActorId) : Prop :=
  ∃ entry, s.shared.by_id.lookup id = some entry ∧ entry.name = some name

/-- Thread `t` has removed the entry of an id and not yet its name. -/
def Unregistering (s : Threads) (t : Nat) (name : String) (id : ActorId) : Prop :=
  ∃ thread, s.threads[t]? = some thread ∧ (thread.pc = .lock_name id name ∨ thread.pc = .remove_name id name)

theorem carries_entry (s : Threads) (name : String) (id : ActorId) :
    Carries s.shared (pcsOf s) name id none ↔ Named s name id := by
  simp only [Carries,Named,Option.map_eq_some_iff]

theorem carries_thread (s : Threads) (t : Nat) (name : String) (id : ActorId) :
    Carries s.shared (pcsOf s) name id (some t) ↔ Unregistering s t name id := by
  simp only [Carries,Unregistering,pcsOf]
  cases s.threads[t]? with
  | none => simp [owns]
  | some thread => cases pc : thread.pc <;> simp [owns,pc,and_comm]

/-- What holds of the two maps and of the calls in progress. -/
structure IndexConsistent (s : Threads) : Prop where
  /-- A name points to an entry that carries it, or its owner is being
      unregistered. -/
  owned : ∀ name id, s.shared.by_name.lookup name = some id → Named s name id ∨ ∃ t, Unregistering s t name id
  /-- No two entries carry the same name. -/
  distinct : ∀ name id id', Named s name id → Named s name id' → id = id'
  /-- An unregistration removes the name of its own entry. -/
  removes : ∀ (t : Nat) (thread : Thread) name id, s.threads[t]? = some thread → thread.pc = .remove_name id name →
    s.shared.by_name.lookup name = some id ∧ ∀ other, ¬ Named s name other
  /-- A failed registration has changed neither map. -/
  failed : ∀ (t : Nat) (thread : Thread) e, s.threads[t]? = some thread → thread.pc = .unlock (.error e) →
    thread.changed = false ∧ ∀ call s', s.step (t,call) = some s' → s'.shared = s.shared
  /-- Without a carrier a name is free. -/
  free : ∀ name, (∀ id, ¬ Named s name id) → (∀ t id, ¬ Unregistering s t name id) → s.shared.by_name.lookup name = none
  /-- While nothing is in progress the index is the inverse of the names. -/
  inverse : (∀ (t : Nat) (thread : Thread), s.threads[t]? = some thread → thread.pc = .idle) →
    ∀ name id, s.shared.by_name.lookup name = some id ↔ Named s name id

/-- Whatever the interleaving, the index of the registry is consistent. -/
theorem registry_index_consistent (config : mailbox.MailboxConfig) (n : Nat) {s : Threads}
    (reached : Transition.Reachable Threads.step (.init config n) s) : IndexConsistent s := by
  have sound : Sound s :=
    reached.invariant (sound_init config n) (fun _ _ _ before _ stepped => sound_step before stepped)
  have inv := sound.consistent
  have owned : ∀ name id, s.shared.by_name.lookup name = some id →
      Named s name id ∨ ∃ t, Unregistering s t name id := by
    intro name id listed
    obtain ⟨who,carrier⟩ := inv.indexed name id listed
    cases who with
    | none => exact .inl ((carries_entry ..).mp carrier)
    | some t => exact .inr ⟨t,(carries_thread ..).mp carrier⟩
  refine ⟨owned,?_,?_,?_,?_,?_⟩
  · intro name id id' first second
    exact (inv.unique name id id' none none ((carries_entry ..).mpr first) ((carries_entry ..).mpr second)).1
  · intro t thread name id found here
    have carrier := (carries_thread s t name id).mpr ⟨thread,found,.inr here⟩
    have at_ : pcsOf s t = .remove_name id name := by simp [pcsOf,found,here]
    refine ⟨?_,fun other named => ?_⟩
    · rcases inv.carried name id (some t) carrier with listed | ⟨u,next⟩
      · exact listed
      · -- A pending mapping belongs to the holder of the lock, which is `t`.
        have same : u = t := inv.alone (by rw [at_]; rfl) (holds_of_pending next)
        rw [same,at_] at next
        cases next
    · have same := (inv.unique name id other (some t) none carrier ((carries_entry ..).mpr named)).2
      cases same
  · intro t thread e found here
    refine ⟨sound.clean t thread found (by rw [here]; rfl),fun call s' stepped => ?_⟩
    obtain ⟨thread',pc,found',advanced,-⟩ := step_cases stepped
    rw [found] at found'
    cases found'
    rw [here] at advanced
    exact (Prod.mk.inj (Option.some.inj advanced)).1.symm
  · intro name unnamed unowned
    cases listed : s.shared.by_name.lookup name with
    | none => rfl
    | some id =>
      rcases owned name id listed with named | ⟨t,owner⟩
      · exact (unnamed id named).elim
      · exact (unowned t id owner).elim
  · intro quiet name id
    have idle : ∀ t, pcsOf s t = .idle := by
      intro t
      unfold pcsOf
      cases found : s.threads[t]? with
      | none => rfl
      | some thread => simpa using quiet t thread found
    constructor
    · intro listed
      rcases owned name id listed with named | ⟨t,thread,found,here⟩
      · exact named
      · rw [quiet t thread found] at here
        rcases here with same | same <;> cases same
    · intro named
      rcases inv.carried name id none ((carries_entry ..).mpr named) with listed | ⟨t,next⟩
      · exact listed
      · rw [idle t] at next
        cases next

/-- An actor is unregistered in the middle of its registration. -/
def crossing : List (Nat × RegistryCall) :=
  List.replicate 5 (0,.register_named ⟨7⟩ (some "worker")) ++ List.replicate 2 (1,.unregister ⟨7⟩) ++
    [(0,.lookup "worker")]

/-- The name is indexed although its entry is gone: the second thread owns it. -/
theorem registry_index_consistent_crossing : ∃ s, Transition.run Threads.step (.init {} 2) crossing = some s ∧
    s.shared.by_name.lookup "worker" = some ⟨7⟩ ∧ s.shared.by_id.lookup ⟨7⟩ = none ∧ IndexConsistent s := by
  have ran : (Transition.run Threads.step (.init {} 2) crossing).map
      (fun s => (s.shared.by_name.lookup "worker",s.shared.by_id.lookup ⟨7⟩)) = some (some ⟨7⟩,none) := by
    decide +kernel
  obtain ⟨s,runs,maps⟩ := Option.map_eq_some_iff.mp ran
  obtain ⟨listed,gone⟩ := Prod.mk.inj maps
  exact ⟨s,runs,listed,gone,registry_index_consistent {} 2 (Transition.reachable_run .start runs)⟩

end ActorKit.NameIndex
