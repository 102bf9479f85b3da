import BufferPool.Pool.Storage

/-!
# The lanes of a pool

Every operation here works on one of the two lanes: it puts buffers in, takes them out, moves them,
looks one up or releases one. A buffer enters the full lane in no other way than by `insert`, which
tells the listener.
-/

namespace BufferPool.Pool

open PoolM

variable {σ : Type}

/-- Puts a detached buffer at the head of a lane. -/
def insert (p : PoolId) (lane : Lane) (h : Handle) : PoolM σ Unit := do
  checkOwner p h
  onArena p fun arena => (arena.prepend lane h.key).map ((), ·)
  if lane = .full then emit (.published p h.buffer h.key (← getBuffer h.buffer).totalSize)
  emit (.inserted p lane h.key)

/-- Takes a buffer out of a lane and leaves it detached. -/
def remove (p : PoolId) (lane : Lane) (h : Handle) : PoolM σ Unit := do
  checkOwner p h
  onArena p fun arena => (arena.remove lane h.key).map ((), ·)

/-- Moves a buffer from a lane to the head of the other one. -/
def move (p : PoolId) (source : Lane) (h : Handle) : PoolM σ Unit := do
  remove p source h
  insert p source.other h

def inLane (p : PoolId) (lane : Lane) (h : Handle) : PoolM σ Bool := do
  checkOwner p h
  return (← getPool p).arena.inLane lane h.key

def count (p : PoolId) (lane : Lane) : PoolM σ Nat := return (← getPool p).arena.count lane

/-- The first buffer that is not retired, that nobody owns and that has `size` bytes of free space.
It is acquired for `t`. A buffer that is too small is acquired only to look, and released again. -/
def firstFit (size : UInt64) (t : Thread) :
    List (Arena.Key × BufferId) → PoolM σ (Option (Arena.Key × BufferId))
  | [] => return none
  | (key, b) :: rest => do
    if (← getBuffer b).retired then firstFit size t rest
    else if ← tryAcquire b t then
      if size ≤ (← getBuffer b).freeSize then return some (key, b)
      else
        release b
        firstFit size t rest
    else firstFit size t rest

/-- Acquires for `t` the first buffer of the free lane that fits. It stays in the lane. -/
def find (p : PoolId) (size : UInt64) (t : Thread) : PoolM σ (Option Handle) := do
  let entries ← readArena p (·.entries .free .forward)
  match ← firstFit size t entries with
  | none => return none
  | some (key, b) =>
    note p (.found size)
    retain b
    return some ⟨p, key, b⟩

def census (p : PoolId) : PoolM σ Census := do
  let pool ← getPool p
  return ⟨pool.arena.count .free, pool.arena.count .full, pool.config.cacheCount, pool.allocated,
    pool.config.limit⟩

/-- Faults, in the checked profile, if a buffer is not fit to be kept. -/
def expectIdle (b : BufferId) : PoolM σ Unit := do
  let buffer ← getBuffer b
  expect buffer.isEmpty .emptyWhenKept
  expect (!buffer.retired) .notRetiredWhenKept
  expect buffer.owner.isNone .unownedWhenKept

/-- Asks the retention rule whether to keep a buffer that has left its lane. -/
def consult (p : PoolId) : PoolM σ Bool := do
  let c ← census p
  let pool ← getPool p
  let keep := pool.config.retention.keeps pool.consultations c
  modifyPool p fun pool => { pool with consultations := pool.consultations + 1 }
  emit (.consulted p c keep)
  return keep

/-- Decides about a detached buffer and gives up the handle: a one-shot buffer is deallocated, any
other one as the retention rule says. A buffer that is kept goes to the head of the free lane. -/
def dispose (p : PoolId) (h : Handle) : PoolM σ Unit := do
  if (← getBuffer h.buffer).transient then
    note p .releasingTransient
    deallocate p h
  else
    let keep ← owning h.buffer do
      expectIdle h.buffer
      consult p
    if keep then
      owning h.buffer (onArena p fun arena => (arena.prepend .free h.key).map ((), ·))
      emit (.kept p h.key)
      drop h.buffer
    else deallocate p h

/-- Takes a buffer out of a lane, decides about it and gives up the handle. -/
def release (p : PoolId) (lane : Lane) (h : Handle) : PoolM σ Unit := do
  owning h.buffer (remove p lane h)
  dispose p h

end BufferPool.Pool
