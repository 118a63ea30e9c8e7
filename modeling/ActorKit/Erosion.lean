import ActorKit.Requests

/-!
# What recycling costs

A recycled block is cut down to the request it serves and keeps that size for
good. So the pool may end up without a place for a size it has served before: when
the last block of that size is recycled for less, or the unused rest of the arena
that could still hold it is used up.
-/

namespace ActorKit.Erosion
open ActorKit.mailbox ActorKit.memory_pool ActorKit.BlockSafety ActorKit.Requests ActorKit.Transition

/-- A session and the sizes it has granted. -/
structure Observed where
  session : Session
  granted : List Nat := []
deriving DecidableEq

/-- A borrow or a drop. -/
def step (o : Observed) : Operation → Option Observed
  | .borrow size => (o.session.request (.borrow size)).map (fun session =>
      { session, granted := if (o.session.pool.borrow size).1.isSome then size :: o.granted else o.granted })
  | .drop i => (o.session.request (.drop i)).map (fun session => { o with session })
  | .reset => none

/-- While no block is outstanding, every size granted so far is granted again. -/
def Usable (o : Observed) : Prop :=
  o.session.outstanding = [] → ∀ size ∈ o.granted, (o.session.pool.borrow size).1.isSome

/-- The arena has room for `size` bytes behind an offset. -/
def Room (p : BumpAllocator) (offset size : Nat) : Prop := offset + (size + 7) / 8 * 8 ≤ p.arena_size

/-- The request leaves a place for every larger size granted so far: a block other
    than the one it recycles, or enough of the unused rest of the arena. -/
def Leaves (o : Observed) : Operation → Prop
  | .borrow size =>
    let pool := o.session.pool
    let adjusted := max size MIN_BLOCK_SIZE
    size ≠ 0 → ∀ earlier ∈ o.granted, adjusted < served earlier →
      (∃ block ∈ held o.session ++ pool.freed_list.eraseP (adjusted ≤ ·.size), served earlier ≤ block.size) ∨
      if (pool.freed_list.find? (adjusted ≤ ·.size)).isSome then Room pool pool.bump_offset (served earlier)
      else Room pool pool.bump_offset adjusted → Room pool (pool.bump_offset + (adjusted + 7) / 8 * 8) (served earlier)
  | .drop _ | .reset => True

/-! ## First fit -/

theorem unlink_eq (size : Nat) (freed : List FreeBlock) : BumpAllocator.unlink size freed =
    (freed.find? (size ≤ ·.size)).map (fun old => (old.offset,freed.eraseP (size ≤ ·.size))) := by
  induction freed with
  | nil => rfl
  | cons free freed ih =>
    by_cases enough : size ≤ free.size
    · simp [BumpAllocator.unlink,enough]
    · simp only [BumpAllocator.unlink,ih,List.find?_cons,List.eraseP_cons,enough,decide_false]
      cases freed.find? (size ≤ ·.size) <;> rfl

/-- What a request does: it recycles the first free block that is large enough, is
    cut from the rest of the arena, or fails. -/
inductive Served (p : BumpAllocator) (size : Nat) : Option MemoryBlock × BumpAllocator → Prop where
  | recycled (old : FreeBlock) (first : p.freed_list.find? (max size MIN_BLOCK_SIZE ≤ ·.size) = some old) :
      Served p size (some ⟨old.offset,max size MIN_BLOCK_SIZE⟩,{ p with
        freed_list := p.freed_list.eraseP (max size MIN_BLOCK_SIZE ≤ ·.size)
        total_allocated := fetch_add p.total_allocated (max size MIN_BLOCK_SIZE) })
  | cut (unfit : p.freed_list.find? (max size MIN_BLOCK_SIZE ≤ ·.size) = none) (arena : p.arena = true)
      (room : Room p p.bump_offset (max size MIN_BLOCK_SIZE)) :
      Served p size (some ⟨p.bump_offset,max size MIN_BLOCK_SIZE⟩,{ p with
        bump_offset := p.bump_offset + (max size MIN_BLOCK_SIZE + 7) / 8 * 8
        total_allocated := fetch_add p.total_allocated (max size MIN_BLOCK_SIZE) })
  | refused (unfit : p.freed_list.find? (max size MIN_BLOCK_SIZE ≤ ·.size) = none)
      (full : p.arena = true → ¬ Room p p.bump_offset (max size MIN_BLOCK_SIZE)) : Served p size (none,p)

theorem borrow_served (p : BumpAllocator) (arena : p.arena_size ≤ 2 ^ 63 - 8) {size : Nat} (some_ : size ≠ 0)
    (small : size + 7 < 2 ^ 64) : Served p size (p.borrow size) := by
  have rounded : max size MIN_BLOCK_SIZE + 7 < 2 ^ 64 := by
    unfold MIN_BLOCK_SIZE
    omega
  simp only [BumpAllocator.borrow,some_,if_false,BumpAllocator.try_borrow_from_freed_list,unlink_eq]
  cases first : p.freed_list.find? (max size MIN_BLOCK_SIZE ≤ ·.size) with
  | some old => exact .recycled old first
  | none =>
    simp only [Option.map_none,BumpAllocator.try_bump_allocate,align8_eq rounded]
    by_cases absent : p.arena = false
    · simp only [absent,Bool.not_false,if_true]
      exact .refused first (fun present => by simp [absent] at present)
    · have present : p.arena = true := by simpa using absent
      simp only [present,Bool.not_true,Bool.false_eq_true,if_false]
      by_cases room : Room p p.bump_offset (max size MIN_BLOCK_SIZE)
      · have fits : ¬ 2 ^ 64 ≤ p.bump_offset + (max size MIN_BLOCK_SIZE + 7) / 8 * 8 := by
          unfold Room at room
          omega
        simp only [if_neg fits,if_neg (Nat.not_lt.mpr room)]
        have cut := Served.cut first present room
        rw [present] at cut
        exact cut
      · have full : p.arena_size < p.bump_offset + (max size MIN_BLOCK_SIZE + 7) / 8 * 8 := Nat.not_le.mp room
        simp only [if_pos full,ite_self]
        exact .refused first (fun _ => room)

/-! ## Places for what was granted -/

/-- Some block, held or free, or the unused rest of the arena can hold `size` bytes. -/
def Place (s : Session) (size : Nat) : Prop :=
  (∃ block ∈ blocks s, size ≤ block.size) ∨ Room s.pool s.pool.bump_offset size

/-- Every size granted so far has a place. -/
def Covered (o : Observed) : Prop := ∀ size ∈ o.granted, Place o.session (served size)

structure Inv (o : Observed) : Prop where
  kept : Kept o.session
  small : ∀ size ∈ o.granted, size + 7 < 2 ^ 64

theorem place_nothing {s : Session} (safe : Safe s) : Place s (served 0) := by
  have bumped := safe.bumped
  exact .inr (by simpa [Room,served] using bumped)

theorem served_eq {size : Nat} (some_ : size ≠ 0) : served size = max size MIN_BLOCK_SIZE := if_neg some_

theorem max_positive (size : Nat) : 0 < max size MIN_BLOCK_SIZE := by
  unfold MIN_BLOCK_SIZE
  omega

/-- Without an arena there is no room. -/
theorem room_needs_arena {o : Observed} (inv : Inv o) {size : Nat}
    (full : o.session.pool.arena = true → ¬ Room o.session.pool o.session.pool.bump_offset (max size MIN_BLOCK_SIZE)) :
    ¬ Room o.session.pool o.session.pool.bump_offset (max size MIN_BLOCK_SIZE) := by
  intro room
  by_cases present : o.session.pool.arena = true
  · exact full present room
  · have empty := inv.kept.empty (by simpa using present)
    have positive := max_positive size
    rw [Room,empty] at room
    omega

/-- While nothing is held, a size is granted exactly when it has a place. -/
theorem granted_iff {o : Observed} (inv : Inv o) (idle : o.session.outstanding = []) {size : Nat}
    (small : size + 7 < 2 ^ 64) : (o.session.pool.borrow size).1.isSome ↔ Place o.session (served size) := by
  by_cases nothing : size = 0
  · subst nothing
    exact iff_of_true rfl (place_nothing inv.kept.toSafe)
  have free : blocks o.session = o.session.pool.freed_list := by simp [blocks,held,idle]
  have result := borrow_served o.session.pool inv.kept.arena nothing small
  rw [Place,free,served_eq nothing]
  generalize o.session.pool.borrow size = answer at result ⊢
  cases result with
  | recycled old first =>
    have enough := List.find?_some first
    exact iff_of_true rfl (.inl ⟨old,List.mem_of_find?_eq_some first,by simpa using enough⟩)
  | cut unfit arena room => exact iff_of_true rfl (.inr room)
  | refused unfit full =>
    refine iff_of_false (by simp) ?_
    rintro (⟨block,listed,enough⟩ | room)
    · have none := List.find?_eq_none.mp unfit block listed
      simp only [decide_eq_true_eq] at none
      exact none enough
    · exact room_needs_arena inv full room

theorem usable_iff {o : Observed} (inv : Inv o) (idle : o.session.outstanding = []) : Usable o ↔ Covered o := by
  constructor
  · intro usable size member
    exact (granted_iff inv idle (inv.small size member)).mp (usable idle size member)
  · intro covered _ size member
    exact (granted_iff inv idle (inv.small size member)).mpr (covered size member)

/-! ## One step -/

/-- What a step does to the blocks and the rest of the arena. -/
inductive Moved (o : Observed) : Operation → Observed → Prop where
  | dropped (i : Nat) (session : Session) (same : (blocks o.session).Perm (blocks session))
      (offset : session.pool.bump_offset = o.session.pool.bump_offset)
      (size : session.pool.arena_size = o.session.pool.arena_size) : Moved o (.drop i) { o with session }
  | nothing (session : Session) (same : blocks session = blocks o.session) (pool : session.pool = o.session.pool) :
      Moved o (.borrow 0) { session, granted := 0 :: o.granted }
  | recycled (size : Nat) (some_ : size ≠ 0) (small : size + 7 < 2 ^ 64) (old : FreeBlock) (session : Session)
      (first : o.session.pool.freed_list.find? (max size MIN_BLOCK_SIZE ≤ ·.size) = some old)
      (now : blocks session = ⟨old.offset,max size MIN_BLOCK_SIZE⟩ ::
        (held o.session ++ o.session.pool.freed_list.eraseP (max size MIN_BLOCK_SIZE ≤ ·.size)))
      (offset : session.pool.bump_offset = o.session.pool.bump_offset)
      (arena : session.pool.arena_size = o.session.pool.arena_size) :
      Moved o (.borrow size) { session, granted := size :: o.granted }
  | cut (size : Nat) (some_ : size ≠ 0) (small : size + 7 < 2 ^ 64) (session : Session)
      (unfit : o.session.pool.freed_list.find? (max size MIN_BLOCK_SIZE ≤ ·.size) = none)
      (room : Room o.session.pool o.session.pool.bump_offset (max size MIN_BLOCK_SIZE))
      (now : blocks session = ⟨o.session.pool.bump_offset,max size MIN_BLOCK_SIZE⟩ :: blocks o.session)
      (offset : session.pool.bump_offset = o.session.pool.bump_offset + (max size MIN_BLOCK_SIZE + 7) / 8 * 8)
      (arena : session.pool.arena_size = o.session.pool.arena_size) :
      Moved o (.borrow size) { session, granted := size :: o.granted }
  | refused (size : Nat) (some_ : size ≠ 0)
      (unfit : o.session.pool.freed_list.find? (max size MIN_BLOCK_SIZE ≤ ·.size) = none)
      (full : ¬ Room o.session.pool o.session.pool.bump_offset (max size MIN_BLOCK_SIZE)) : Moved o (.borrow size) o

theorem blocks_borrowed (s : Session) (block : MemoryBlock) (size granted : Nat) (pool : BumpAllocator)
    (positive : 0 < block.size) :
    blocks { s with pool, outstanding := (block,size) :: s.outstanding, granted } =
      block :: (held s ++ pool.freed_list) := by
  simp [blocks,held,positive]

theorem step_moves {o o' : Observed} (inv : Inv o) {op : Operation} (rounds : OnRequest Rounds o.session op)
    (stepped : step o op = some o') : Moved o op o' := by
  cases op with
  | reset => cases stepped
  | drop i =>
    obtain ⟨session,requested,rfl⟩ := Option.map_eq_some_iff.mp stepped
    simp only [Session.request,Session.step] at requested
    split at requested
    · next block size found =>
      cases requested
      have arena : (o.session.pool.drop block).bump_offset = o.session.pool.bump_offset ∧
          (o.session.pool.drop block).arena_size = o.session.pool.arena_size := by
        unfold BumpAllocator.drop
        split <;> exact ⟨rfl,rfl⟩
      exact .dropped i _ (blocks_dropped found _) arena.1 arena.2
    · cases requested
  | borrow size =>
    obtain ⟨session,requested,rfl⟩ := Option.map_eq_some_iff.mp stepped
    by_cases none_ : size = 0
    · subst none_
      cases requested
      exact .nothing _ (by simp [blocks,held]) rfl
    by_cases small : size + 7 < 2 ^ 64
    · have fits : ¬ 2 ^ 64 ≤ size := by omega
      simp only [Session.request,if_neg fits] at requested
      have result := borrow_served o.session.pool inv.kept.arena none_ small
      generalize answered : o.session.pool.borrow size = answer at result requested
      cases result with
      | recycled old first =>
        cases requested
        simp only [Option.isSome_some,if_true]
        exact .recycled size none_ small old _ first (blocks_borrowed o.session _ size _ _ (max_positive size)) rfl rfl
      | cut unfit arena room =>
        cases requested
        simp only [Option.isSome_some,if_true]
        exact .cut size none_ small _ unfit room (blocks_borrowed o.session _ size _ _ (max_positive size)) rfl rfl
      | refused unfit full =>
        cases requested
        exact .refused size none_ unfit (room_needs_arena inv full)
    · have absent : o.session.pool.arena = false := rounds.resolve_left small
      have refused := borrow_absent inv.kept absent none_
      simp only [Session.request,refused] at requested
      split at requested
      · cases requested
      · cases requested
        simp only [refused,Option.isSome_none,Bool.false_eq_true,if_false]
        refine .refused size none_ (by rw [freed_absent inv.kept absent]; rfl) (room_needs_arena inv (fun present => ?_))
        rw [absent] at present
        cases present

theorem step_request {o o' : Observed} {op : Operation} (stepped : step o op = some o') :
    o.session.request op = some o'.session := by
  cases op with
  | reset => cases stepped
  | borrow size | drop i =>
    obtain ⟨session,requested,rfl⟩ := Option.map_eq_some_iff.mp stepped
    exact requested

theorem inv_step {o o' : Observed} (inv : Inv o) {op : Operation} (rounds : OnRequest Rounds o.session op)
    (stepped : step o op = some o') : Inv o' := by
  refine ⟨kept_request inv.kept rounds (step_request stepped),?_⟩
  cases step_moves inv rounds stepped with
  | dropped | refused => exact inv.small
  | nothing => exact List.forall_mem_cons.mpr ⟨by decide,inv.small⟩
  | recycled size some_ small | cut size some_ small => exact List.forall_mem_cons.mpr ⟨small,inv.small⟩

/-! ## Places come and go -/

theorem place_congr {s s' : Session} (same : (blocks s).Perm (blocks s'))
    (offset : s'.pool.bump_offset = s.pool.bump_offset) (arena : s'.pool.arena_size = s.pool.arena_size) (size : Nat) :
    Place s' size ↔ Place s size := by
  simp only [Place,Room,offset,arena,same.mem_iff]

/-- The places after a block was cut down or cut out. -/
theorem place_cons {s : Session} {block : Region} {others : List Region} (now : blocks s = block :: others)
    (size : Nat) : Place s size ↔
      size ≤ block.size ∨ (∃ other ∈ others, size ≤ other.size) ∨ Room s.pool s.pool.bump_offset size := by
  simp only [Place,now,List.mem_cons,exists_eq_or_imp,or_assoc]

theorem room_mono {p : BumpAllocator} {offset offset' size size' : Nat} (before : offset' ≤ offset)
    (smaller : size' ≤ size) (room : Room p offset size) : Room p offset' size' := by
  unfold Room at room ⊢
  omega

theorem eraseP_unfit {freed : List FreeBlock} {size : Nat} (unfit : freed.find? (size ≤ ·.size) = none) :
    freed.eraseP (size ≤ ·.size) = freed :=
  List.eraseP_of_forall_not (List.find?_eq_none.mp unfit)

/-- A step keeps a place for every size exactly when it leaves one. -/
theorem covered_step {o o' : Observed} (inv : Inv o) (covered : Covered o) {op : Operation} (moved : Moved o op o') :
    Covered o' ↔ Leaves o op := by
  cases moved with
  | dropped i session same offset arena =>
    refine iff_of_true (fun size member => ?_) trivial
    exact (place_congr same offset arena _).mpr (covered size member)
  | nothing session same pool =>
    refine iff_of_true (List.forall_mem_cons.mpr ⟨?_,fun size member => ?_⟩) (fun some_ => absurd rfl some_)
    · exact (place_congr (same ▸ .refl _) (by rw [pool]) (by rw [pool]) _).mpr (place_nothing inv.kept.toSafe)
    · exact (place_congr (same ▸ .refl _) (by rw [pool]) (by rw [pool]) _).mpr (covered size member)
  | recycled size some_ small old session first now offset arena =>
    have places := place_cons now
    simp only [Room,offset,arena] at places
    simp only [Covered,List.forall_mem_cons,places,served_eq some_,Leaves,first,Option.isSome_some,if_true,Room]
    constructor
    · rintro ⟨-,others⟩ - earlier member larger
      exact (others earlier member).resolve_left (Nat.not_le.mpr larger)
    · intro leaves
      refine ⟨.inl (Nat.le_refl _),fun earlier member => ?_⟩
      by_cases larger : max size MIN_BLOCK_SIZE < served earlier
      · exact .inr (leaves some_ earlier member larger)
      · exact .inl (Nat.not_lt.mp larger)
  | cut size some_ small session unfit room now offset arena =>
    have places := place_cons now
    simp only [Room,offset,arena] at places
    have before : (o.session.pool.bump_offset + (max size MIN_BLOCK_SIZE + 7) / 8 * 8 ≤ o.session.pool.arena_size) :=
      room
    simp only [Covered,List.forall_mem_cons,places,served_eq some_,Leaves,unfit,Option.isSome_none,Bool.false_eq_true,
      if_false,Room,before,true_implies,eraseP_unfit unfit,blocks]
    constructor
    · rintro ⟨-,others⟩ - earlier member larger
      exact (others earlier member).resolve_left (Nat.not_le.mpr larger)
    · intro leaves
      refine ⟨.inl (Nat.le_refl _),fun earlier member => ?_⟩
      by_cases larger : max size MIN_BLOCK_SIZE < served earlier
      · exact .inr (leaves some_ earlier member larger)
      · exact .inl (Nat.not_lt.mp larger)
  | refused size some_ unfit full =>
    refine iff_of_true covered (fun _ earlier member larger => ?_)
    simp only [unfit,Option.isSome_none,Bool.false_eq_true,if_false,eraseP_unfit unfit]
    rcases covered earlier member with block | room
    · exact .inl block
    · exact .inr (fun fits => absurd fits full)

/-- A place that is lost does not come back. -/
theorem covered_before {o o' : Observed} {op : Operation} (moved : Moved o op o') (covered : Covered o') : Covered o := by
  cases moved with
  | dropped i session same offset arena =>
    exact fun size member => (place_congr same offset arena _).mp (covered size member)
  | nothing session same pool =>
    intro size member
    exact (place_congr (same ▸ .refl _) (by rw [pool]) (by rw [pool]) _).mp (covered size (List.mem_cons_of_mem _ member))
  | refused => exact covered
  | recycled size some_ small old session first now offset arena =>
    intro earlier member
    have enough : max size MIN_BLOCK_SIZE ≤ old.size := by simpa using List.find?_some first
    rcases (place_cons now _).mp (covered earlier (List.mem_cons_of_mem _ member)) with block | other | room
    · have listed := List.mem_append_right (held o.session) (List.mem_of_find?_eq_some first)
      exact .inl ⟨old,listed,Nat.le_trans block enough⟩
    · obtain ⟨block,listed,fits⟩ := other
      refine .inl ⟨block,?_,fits⟩
      exact (List.mem_append.mp listed).elim (List.mem_append_left _)
        (fun free => List.mem_append_right _ (List.mem_of_mem_eraseP free))
    · rw [Room,offset,arena] at room
      exact .inr room
  | cut size some_ small session unfit room now offset arena =>
    intro earlier member
    rcases (place_cons now _).mp (covered earlier (List.mem_cons_of_mem _ member)) with block | other | rest
    · exact .inr (room_mono (Nat.le_refl _) block room)
    · exact .inl other
    · rw [Room,offset,arena] at rest
      exact .inr (room_mono (Nat.le_add_right ..) (Nat.le_refl _) rest)

/-! ## Runs -/

/-- No request of the run wraps. -/
abbrev NoneWraps (o : Observed) (ops : List Operation) : Prop :=
  AllMeet step (fun o => OnRequest Rounds o.session) o ops

theorem inv_run {o o' : Observed} (inv : Inv o) {ops : List Operation} (narrow : NoneWraps o ops)
    (runs : run step o ops = some o') : Inv o' := by
  induction ops generalizing o with
  | nil =>
    cases runs
    exact inv
  | cons op ops ih =>
    obtain ⟨next,stepped,runs⟩ := Option.bind_eq_some_iff.mp runs
    obtain ⟨rounds,narrow⟩ := narrow next stepped
    exact ih (inv_step inv rounds stepped) narrow runs

theorem usable_along {o : Observed} (inv : Inv o) (covered : Covered o) {ops : List Operation}
    (meets : AllMeet step (fun o op => OnRequest Rounds o.session op ∧ Leaves o op) o ops) : Along step Usable o ops := by
  induction ops generalizing o with
  | nil => exact fun idle => (usable_iff inv idle).mpr covered idle
  | cons op ops ih =>
    refine ⟨fun idle => (usable_iff inv idle).mpr covered idle,fun o' stepped => ?_⟩
    obtain ⟨⟨rounds,leaves⟩,rest⟩ := meets o' stepped
    exact ih (inv_step inv rounds stepped) ((covered_step inv covered (step_moves inv rounds stepped)).mpr leaves) rest

/-- What is covered at the end of a run was never without a place, so every step
    left one. -/
theorem leaves_along {o o' : Observed} (inv : Inv o) {ops : List Operation} (narrow : NoneWraps o ops)
    (runs : run step o ops = some o') (covered : Covered o') : Covered o ∧ AllMeet step Leaves o ops := by
  induction ops generalizing o with
  | nil =>
    cases runs
    exact ⟨covered,trivial⟩
  | cons op ops ih =>
    obtain ⟨next,stepped,runs⟩ := Option.bind_eq_some_iff.mp runs
    obtain ⟨rounds,narrow⟩ := narrow next stepped
    have moved := step_moves inv rounds stepped
    obtain ⟨after,rest⟩ := ih (inv_step inv rounds stepped) narrow runs
    have before := covered_before moved after
    refine ⟨before,fun other again => ?_⟩
    rw [stepped] at again
    cases again
    exact ⟨(covered_step inv before moved).mp after,rest⟩

/-- The start of a run with a new pool. -/
def start (config : MemoryPoolConfig) (obtained : Bool) : Observed := { session := { pool := .new config obtained } }

theorem inv_start (config : MemoryPoolConfig) (obtained : Bool) : Inv (start config obtained) :=
  ⟨kept_new config obtained,fun _ member => by cases member⟩

/-- Returned memory stays usable in every run whose requests do not wrap and each
    leave a place for what was granted before; and when a run without wrapping
    requests ends with nothing outstanding, only then. -/
theorem memory_usable_iff (config : MemoryPoolConfig) (obtained : Bool) (ops : List Operation) :
    (AllMeet step (fun o op => OnRequest Rounds o.session op ∧ Leaves o op) (start config obtained) ops →
      Along step Usable (start config obtained) ops) ∧
    ∀ o, run step (start config obtained) ops = some o → o.session.outstanding = [] →
      NoneWraps (start config obtained) ops →
      (Along step Usable (start config obtained) ops ↔ AllMeet step Leaves (start config obtained) ops) := by
  have inv := inv_start config obtained
  have covered : Covered (start config obtained) := fun _ member => by cases member
  refine ⟨usable_along inv covered,fun o runs idle narrow => ?_⟩
  constructor
  · intro along
    have ended := inv_run inv narrow runs
    exact (leaves_along inv narrow runs ((usable_iff ended idle).mp (along.last runs))).2
  · exact fun leaves => usable_along inv covered (allMeet_and narrow leaves)

/-- A pool of 64 bytes that has served 16 bytes in between does not serve 64 bytes
    a second time. -/
theorem recycled_block_shrinks :
    ¬ ∀ (config : MemoryPoolConfig) (obtained : Bool) (ops : List Operation),
      Along step Usable (start config obtained) ops := by
  intro always
  have along := always { arena_size_bytes := 64 } true [.borrow 64,.drop 0,.borrow 16,.drop 0]
  have runs : run step (start { arena_size_bytes := 64 } true) [.borrow 64,.drop 0,.borrow 16,.drop 0] = some
      { session :=
          { pool := { arena := true, arena_size := 64, bump_offset := 64, freed_list := [⟨0,16⟩],
                      total_allocated := 80, total_freed := 80 }
            outstanding := [], granted := 80, returned := 80 }
        granted := [16,64] } := by
    decide +kernel
  have served := along.last runs rfl 64 (by decide)
  exact absurd served (by decide +kernel)

end ActorKit.Erosion
