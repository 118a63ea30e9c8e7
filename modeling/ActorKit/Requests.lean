import ActorKit.BlockSafety

/-!
# Requests of every size

The pool serves every size that it can round up to 8 inside the arena, or not at
all. A size among the last seven of a `usize` is rounded up to nothing: the pool
hands out a block of that size where the next one will start.
-/

namespace ActorKit.Requests
open ActorKit.mailbox ActorKit.memory_pool ActorKit.BlockSafety ActorKit.Transition

/-- What is expected of a pool that is asked for `size` bytes. -/
structure Contained (p : BumpAllocator) (size : Nat) : Prop where
  inside : ∀ block, (p.borrow size).1 = some block → 0 < block.size → block.offset + block.size ≤ p.arena_size
  refused : p.arena_size < size → p.borrow size = (none,p)

/-- The size is rounded up within 64 bits, or there is no arena at all. -/
def Rounds (p : BumpAllocator) (size : Nat) : Prop := size + 7 < 2 ^ 64 ∨ p.arena = false

/-- A property of the requests of a session. -/
def OnRequest (P : BumpAllocator → Nat → Prop) (s : Session) : Operation → Prop
  | .borrow size => P s.pool size
  | .drop _ | .reset => True

/-- Without an arena there is no room. -/
structure Kept (s : Session) : Prop extends Safe s where
  empty : s.pool.arena = false → s.pool.arena_size = 0

/-! ## The arena -/

theorem align8_wide {size : Nat} (fits : size < 2 ^ 64) (wide : 2 ^ 64 ≤ size + 7) : BumpAllocator.align8 size = 0 := by
  have wrapped : (size + 7) % 2 ^ 64 = size + 7 - 2 ^ 64 := by omega
  have few : size + 7 - 2 ^ 64 < 8 := by omega
  rw [BumpAllocator.align8,wrapped,show (2 ^ 64 - 1 - 7 : Nat) = (2 ^ 61 - 1) * 2 ^ 3 by decide,
    clear_low_bits (by omega)]
  omega

theorem bump_arena {p p' : BumpAllocator} {size offset : Nat} (bumped : p.try_bump_allocate size = some (offset,p')) :
    p'.arena = p.arena ∧ p'.arena_size = p.arena_size := by
  unfold BumpAllocator.try_bump_allocate at bumped
  split at bumped
  · cases bumped
  · simp only at bumped
    split at bumped
    · cases bumped
    · split at bumped <;> cases bumped
      exact ⟨rfl,rfl⟩

theorem borrow_arena (p : BumpAllocator) (size : Nat) :
    (p.borrow size).2.arena = p.arena ∧ (p.borrow size).2.arena_size = p.arena_size := by
  simp only [BumpAllocator.borrow,BumpAllocator.try_borrow_from_freed_list]
  split
  · exact ⟨rfl,rfl⟩
  · cases walk : BumpAllocator.unlink (max size MIN_BLOCK_SIZE) p.freed_list with
    | some found => exact ⟨rfl,rfl⟩
    | none =>
      cases bump : p.try_bump_allocate (max size MIN_BLOCK_SIZE) with
      | none => exact ⟨rfl,rfl⟩
      | some moved =>
        obtain ⟨offset,moved⟩ := moved
        have kept := bump_arena bump
        exact kept

theorem step_arena {s s' : Session} {op : Operation} (stepped : s.step op = some s') :
    s'.pool.arena = s.pool.arena ∧ s'.pool.arena_size = s.pool.arena_size := by
  cases op with
  | borrow size =>
    have kept := borrow_arena s.pool size
    simp only [Session.step] at stepped
    split at stepped
    · cases stepped
    · split at stepped
      all_goals
        next borrowed =>
        cases stepped
        rw [borrowed] at kept
        exact kept
  | drop i =>
    simp only [Session.step] at stepped
    split at stepped
    · cases stepped
      simp only [BumpAllocator.drop]
      split <;> exact ⟨rfl,rfl⟩
    · cases stepped
  | reset =>
    simp only [Session.step] at stepped
    split at stepped
    · cases stepped
      exact ⟨rfl,rfl⟩
    · cases stepped

theorem kept_new (config : MemoryPoolConfig) (obtained : Bool) : Kept { pool := .new config obtained } := by
  refine ⟨safe_new config obtained,?_⟩
  simp only [BumpAllocator.new]
  split
  · intro absent
    cases absent
  · exact fun _ => rfl

section
variable {s s' : Session} (kept : Kept s)
include kept

theorem kept_step {op : Operation} (stepped : s.step op = some s') : Kept s' := by
  obtain ⟨arena,size⟩ := step_arena stepped
  refine ⟨safe_step kept.toSafe stepped,fun absent => ?_⟩
  rw [size]
  exact kept.empty (arena.symm.trans absent)

theorem free_small {free : FreeBlock} (listed : free ∈ s.pool.freed_list) :
    free.offset + free.size ≤ s.pool.arena_size ∧ MIN_BLOCK_SIZE ≤ free.size := by
  have placed := kept.placed free (List.mem_append_right _ listed)
  exact ⟨placed.inside.trans kept.bumped,placed.large⟩

theorem freed_absent (absent : s.pool.arena = false) : s.pool.freed_list = [] := by
  refine List.eq_nil_iff_forall_not_mem.mpr (fun free listed => ?_)
  obtain ⟨inside,large⟩ := free_small kept listed
  rw [kept.empty absent] at inside
  unfold MIN_BLOCK_SIZE at large
  omega

/-- A pool without an arena serves nothing. -/
theorem borrow_absent (absent : s.pool.arena = false) {size : Nat} (some_ : size ≠ 0) :
    s.pool.borrow size = (none,s.pool) := by
  simp [BumpAllocator.borrow,some_,BumpAllocator.try_borrow_from_freed_list,freed_absent kept absent,
    BumpAllocator.unlink,BumpAllocator.try_bump_allocate,absent]

/-! ## One request -/

theorem contained_narrow {size : Nat} (small : size + 7 < 2 ^ 64) : Contained s.pool size := by
  have inside : ∀ block, (s.pool.borrow size).1 = some block → 0 < block.size →
      block.offset + block.size ≤ s.pool.arena_size ∧ size ≤ block.size := by
    intro block borrowed positive
    have some_ : size ≠ 0 := by
      rintro rfl
      cases borrowed
      exact absurd positive (by decide)
    have pair : s.pool.borrow size = (some block,(s.pool.borrow size).2) := Prod.ext borrowed rfl
    obtain ⟨sized,cause⟩ := borrow_cases some_ small pair
    refine ⟨?_,by rw [sized]; exact Nat.le_max_left ..⟩
    rcases cause with ⟨old,left,here,smaller,split,-⟩ | ⟨here,room,-⟩
    · have placed := free_small kept (split.mem_iff.mpr List.mem_cons_self)
      omega
    · omega
  refine ⟨fun block borrowed positive => (inside block borrowed positive).1,fun large => ?_⟩
  cases result : (s.pool.borrow size).1 with
  | none =>
    have same := borrow_fails (Prod.ext result rfl : s.pool.borrow size = (none,(s.pool.borrow size).2))
    exact Prod.ext result same
  | some block =>
    by_cases positive : 0 < block.size
    · obtain ⟨within,enough⟩ := inside block result positive
      omega
    · -- only a request for nothing is served with nothing
      have some_ : size ≠ 0 := by omega
      obtain ⟨sized,-⟩ := borrow_cases some_ small (Prod.ext result rfl : _ = (some block,(s.pool.borrow size).2))
      rw [sized] at positive
      omega

/-- A size that is rounded up to nothing is served at the bump offset. -/
theorem borrow_wide (present : s.pool.arena = true) {size : Nat} (fits : size < 2 ^ 64) (wide : 2 ^ 64 ≤ size + 7) :
    (s.pool.borrow size).1 = some ⟨s.pool.bump_offset,size⟩ := by
  have arena := kept.arena
  have bumped := kept.bumped
  have adjusted : max size MIN_BLOCK_SIZE = size := by
    unfold MIN_BLOCK_SIZE
    omega
  have none : BumpAllocator.unlink size s.pool.freed_list = none := by
    cases walk : BumpAllocator.unlink size s.pool.freed_list with
    | none => rfl
    | some found =>
      obtain ⟨old,-,enough,split⟩ := unlink_takes (walk : _ = some (found.1,found.2))
      have placed := free_small kept (split.mem_iff.mpr List.mem_cons_self)
      omega
  have some_ : size ≠ 0 := by omega
  have room : ¬ s.pool.arena_size < s.pool.bump_offset := by omega
  have narrow : ¬ 2 ^ 64 ≤ s.pool.bump_offset := by omega
  have bump : s.pool.try_bump_allocate size = some (s.pool.bump_offset,s.pool) := by
    have absent : ¬ (!s.pool.arena) = true := by simp [present]
    simp only [BumpAllocator.try_bump_allocate,if_neg absent,align8_wide fits wide,Nat.add_zero,if_neg narrow,if_neg room]
  simp [BumpAllocator.borrow,some_,adjusted,BumpAllocator.try_borrow_from_freed_list,none,bump]

/-- A request is contained exactly when its size can be rounded up. -/
theorem contained_iff {size : Nat} (fits : size < 2 ^ 64) : Contained s.pool size ↔ Rounds s.pool size := by
  constructor
  · intro contained
    by_contra wraps
    rw [Rounds,not_or,Bool.not_eq_false] at wraps
    obtain ⟨wide,present⟩ := wraps
    have borrowed := borrow_wide kept present fits (by omega)
    have inside := contained.inside _ borrowed (by simp only; omega)
    have arena := kept.arena
    simp only at inside
    omega
  · rintro (small | absent)
    · exact contained_narrow kept small
    · by_cases nothing : size = 0
      · exact contained_narrow kept (by omega)
      · have refused := borrow_absent kept absent nothing
        refine ⟨fun block borrowed => ?_,fun _ => refused⟩
        rw [refused] at borrowed
        cases borrowed

/-! ## Runs -/

/-- A request that can be rounded up is an ordinary step, or changes nothing. -/
theorem request_steps {op : Operation} (rounds : OnRequest Rounds s op) (requested : s.request op = some s') :
    s.step op = some s' ∨ s' = s := by
  cases op with
  | drop | reset => exact .inl requested
  | borrow size =>
    by_cases small : size + 7 < 2 ^ 64
    · refine .inl ?_
      have fits : ¬ 2 ^ 64 ≤ size := by omega
      have narrow : ¬ 2 ^ 64 ≤ size + 7 := by omega
      simp only [Session.request,fits,if_false] at requested
      simp only [Session.step,narrow,if_false]
      exact requested
    · have absent : s.pool.arena = false := rounds.resolve_left small
      have refused := borrow_absent kept absent (show size ≠ 0 by omega)
      simp only [Session.request,refused] at requested
      split at requested
      · cases requested
      · cases requested
        exact .inr rfl

theorem kept_request {op : Operation} (rounds : OnRequest Rounds s op) (requested : s.request op = some s') : Kept s' := by
  rcases request_steps kept rounds requested with stepped | rfl
  · exact kept_step kept stepped
  · exact kept

end

/-- In every state reached without a request that wraps, and for every size of a
    `usize`, a request is contained exactly when it does not wrap; so all requests
    of a run are contained exactly when none of them wraps. -/
theorem requests_contained_iff (config : MemoryPoolConfig) (obtained : Bool) :
    (∀ s, Reach Session.request (OnRequest Rounds) { pool := .new config obtained } s →
      ∀ size < 2 ^ 64, (Contained s.pool size ↔ Rounds s.pool size)) ∧
    ∀ ops, AllMeet Session.request (OnRequest Contained) { pool := .new config obtained } ops ↔
      AllMeet Session.request (OnRequest Rounds) { pool := .new config obtained } ops := by
  constructor
  · intro s reached size fits
    have kept : Kept s :=
      reached.invariant (kept_new config obtained) (fun _ _ _ kept rounds stepped => kept_request kept rounds stepped)
    exact contained_iff kept fits
  · intro ops
    refine allMeet_iff (fun s op s' kept rounds stepped => kept_request kept rounds stepped)
      (fun s op s' kept stepped => ?_) (kept_new config obtained) ops
    cases op with
    | drop | reset => exact Iff.rfl
    | borrow size =>
      refine contained_iff kept ?_
      by_contra large
      simp only [Session.request,if_pos (Nat.not_lt.mp large)] at stepped
      cases stepped

/-- A pool of 64 bytes serves the largest size there is. -/
theorem largest_request_served :
    ¬ ∀ (config : MemoryPoolConfig) (obtained : Bool) (ops : List Operation),
      AllMeet Session.request (OnRequest Contained) { pool := .new config obtained } ops := by
  intro always
  have contained := (always { arena_size_bytes := 64 } true [.borrow (2 ^ 64 - 1)] _ (by rfl)).1
  have refused := contained.refused (by decide)
  exact absurd (congrArg Prod.fst refused) (by decide)

end ActorKit.Requests
