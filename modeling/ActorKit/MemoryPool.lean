import ActorKit.Mailbox
import ActorKit.Lib.Regions

/-!
# The memory pool

The model of `memory_pool.rs`. A pointer into the arena is its offset from the
start of the arena, which is aligned to 8 bytes. The free list, whose nodes the
source keeps inside the freed blocks, is a list of these blocks, the last freed
one first. Page size, number of pools and the fragmentation ratio are left out.
-/

namespace ActorKit.memory_pool
open ActorKit.mailbox

def DEFAULT_ARENA_SIZE : Nat := 8 * 1024
def MIN_BLOCK_SIZE : Nat := 16

structure MemoryPoolConfig where
  arena_size_bytes : Nat := DEFAULT_ARENA_SIZE
  preallocate : Bool := true
deriving DecidableEq, Repr

/-- A block that was handed out. One of size 0 has no place in the arena. -/
abbrev MemoryBlock := Region

/-- A block on the free list, with the size it was dropped with. -/
abbrev FreeBlock := Region

/-- `BumpAllocator` with its `BumpAllocatorInner`. -/
structure BumpAllocator where
  /-- Whether there is an arena. -/
  arena : Bool
  arena_size : Nat
  bump_offset : Nat := 0
  freed_list : List FreeBlock := []
  total_allocated : Nat := 0
  total_freed : Nat := 0
deriving DecidableEq, Repr

/-- `Layout::from_size_align(size, 8)` accepts the size: rounded up to 8 it is
    no more than `isize::MAX`. -/
def layout_fits (size : Nat) : Bool := size ≤ 2 ^ 63 - 8

namespace BumpAllocator

def no_arena : BumpAllocator := { arena := false, arena_size := 0 }

/-- A new pool; `obtained` is whether the global allocator had the memory. -/
def new (config : MemoryPoolConfig) (obtained : Bool) : BumpAllocator :=
  if config.preallocate && layout_fits config.arena_size_bytes && obtained then
    { arena := true, arena_size := config.arena_size_bytes }
  else no_arena

/-- The walk along the free list: the first block that is large enough is taken
    out. -/
def unlink (size : Nat) : List FreeBlock → Option (Nat × List FreeBlock)
  | [] => none
  | block :: next =>
    if size ≤ block.size then some (block.offset,next)
    else match unlink size next with
      | some (offset,next) => some (offset,block :: next)
      | none => none

def try_borrow_from_freed_list (p : BumpAllocator) (size : Nat) : Option (Nat × BumpAllocator) :=
  match unlink size p.freed_list with
  | some (offset,freed_list) => some (offset,{ p with freed_list })
  | none => none

/-- `(size + 7) & !7` on 64 bits. -/
def align8 (size : Nat) : Nat := (size + 7) % 2 ^ 64 &&& (2 ^ 64 - 1 - 7)

def try_bump_allocate (p : BumpAllocator) (size : Nat) : Option (Nat × BumpAllocator) :=
  if !p.arena then none
  else
    let new_offset := p.bump_offset + align8 size
    if 2 ^ 64 ≤ new_offset then none
    else if p.arena_size < new_offset then none
    else some (p.bump_offset,{ p with bump_offset := new_offset })

/-- Borrow a block of at least `size` bytes. -/
def borrow (p : BumpAllocator) (size : Nat) : Option MemoryBlock × BumpAllocator :=
  if size = 0 then (some ⟨0,0⟩,p)
  else
    let adjusted_size := max size MIN_BLOCK_SIZE
    let found := match p.try_borrow_from_freed_list adjusted_size with
      | some result => some result
      | none => p.try_bump_allocate adjusted_size
    match found with
    | some (offset,p) =>
      (some ⟨offset,adjusted_size⟩,{ p with total_allocated := fetch_add p.total_allocated adjusted_size })
    | none => (none,p)

/-- The destructor of a block. -/
def drop (p : BumpAllocator) (block : MemoryBlock) : BumpAllocator :=
  if block.size = 0 then p
  else { p with freed_list := block :: p.freed_list, total_freed := fetch_add p.total_freed block.size }

def reset (p : BumpAllocator) : BumpAllocator :=
  { p with bump_offset := 0, freed_list := [], total_allocated := 0, total_freed := 0 }

end BumpAllocator

/-! ## A pool in use -/

/-- A pool and the blocks its users hold, each with the size it was asked for.
    `granted` and `returned` count what was borrowed and dropped since the last
    reset, beyond 64 bits. -/
structure Session where
  pool : BumpAllocator
  outstanding : List (MemoryBlock × Nat) := []
  granted : Nat := 0
  returned : Nat := 0
deriving DecidableEq, Repr

inductive Operation where
  | borrow (size : Nat)
  /-- The holder of the block at this place drops it. -/
  | drop (i : Nat)
  | reset
deriving DecidableEq, Repr

/-- One operation. A request must not overflow when it is rounded up, and a pool
    is reset only while nobody holds a part of it. -/
def Session.step (s : Session) : Operation → Option Session
  | .borrow size =>
    if 2 ^ 64 ≤ size + 7 then none
    else match s.pool.borrow size with
      | (some block,pool) =>
        some { s with pool, outstanding := (block,size) :: s.outstanding, granted := s.granted + block.size }
      | (none,pool) => some { s with pool }
  | .drop i => match s.outstanding[i]? with
    | some (block,_) =>
      some { s with
        pool := s.pool.drop block
        outstanding := s.outstanding.eraseIdx i
        returned := s.returned + block.size }
    | none => none
  | .reset =>
    if s.outstanding.all (fun held => held.1.size == 0) then
      some { s with pool := s.pool.reset, granted := 0, returned := 0 }
    else none

/-- One operation whose request may be any `usize`. -/
def Session.request (s : Session) : Operation → Option Session
  | .borrow size =>
    if 2 ^ 64 ≤ size then none
    else match s.pool.borrow size with
      | (some block,pool) =>
        some { s with pool, outstanding := (block,size) :: s.outstanding, granted := s.granted + block.size }
      | (none,pool) => some { s with pool }
  | .drop i => s.step (.drop i)
  | .reset => s.step .reset

end ActorKit.memory_pool
