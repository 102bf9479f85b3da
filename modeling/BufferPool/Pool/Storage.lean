import BufferPool.PoolM
import BufferPool.SizeClass

/-!
# Buffers entering and leaving a pool

A pool grows by one buffer at a time: a payload from the heap, a fresh buffer around it, an entry in
the arena. Before it grows, it gets rid of what has been abandoned: detached buffers to which nobody
holds a handle. Whatever leaves a pool passes through `retire`, so the accounting and the notices
cannot differ from one way out to the next.
-/

namespace BufferPool.Pool

open PoolM

variable {σ : Type}

/-- Accounts for a buffer that has left the arena. -/
def retire (p : PoolId) (b : BufferId) : PoolM σ Unit := do
  let total := (← getBuffer b).totalSize
  modifyPool p fun pool => { pool with allocated := pool.allocated - total }
  emit (.deallocated p b total)
  note p (.deallocated total)

/-- Accounts for buffers that have left the arena and drops the references that their entries
were. -/
def retireAll (p : PoolId) : List BufferId → PoolM σ Unit
  | [] => return
  | b :: rest => do
    retire p b
    drop b
    retireAll p rest

/-- Gets rid of the detached buffers to which the arena holds the only reference. -/
def reclaim (p : PoolId) : PoolM σ Unit := do
  let w ← get
  let abandoned ← onArena p fun arena => arena.reclaim fun b => w.refs b == 1
  if !abandoned.isEmpty then
    note p (.reclaiming abandoned.length)
    retireAll p abandoned

/-- Asks the heap of a pool for a payload and puts a fresh buffer around it. The one reference to
the buffer is the caller's. -/
def requestPayload (p : PoolId) (capacity : UInt64) : PoolM σ (Option BufferId) := do
  let heap := (← getPool p).heap
  modifyPool p fun pool =>
    { pool with heap := { pool.heap with supply := pool.heap.supply.after capacity } }
  if heap.supply.grants capacity then
    let w ← get
    let b := w.cells.size
    let tag := if heap.recorded then some w.tags else none
    set { w with
      cells := w.cells.push ⟨.fresh w.format capacity, 1, p, tag⟩
      tags := if heap.recorded then w.tags + 1 else w.tags }
    emit (.granted p b tag capacity)
    return some b
  else
    emit (if heap.supply.permits capacity then .unserved p capacity else .refused p capacity)
    return none

/-- Sets up a fresh buffer, which only metered buffers can refuse. -/
def prepare (capacity : UInt64) : PoolM σ Bool := do
  let w ← get
  match w.format with
  | .plain => return true
  | .metered =>
    set { w with maker := w.maker.after capacity }
    return w.maker.grants capacity

/-- Makes a buffer for a request, without an entry in the arena. The one reference to it is the
caller's. -/
def make (p : PoolId) (requested : UInt64) : PoolM σ (Option BufferId) := do
  match SizeClass.ofRequest? requested (← getPool p).minimum with
  | none =>
    expect false (.representable requested)
    note p (.tooLarge requested)
    return none
  | some capacity =>
    match ← requestPayload p capacity with
    | none =>
      note p (.heapFailed requested capacity)
      return none
    | some b =>
      if ← prepare capacity then
        let total := (← getBuffer b).totalSize
        modifyPool p fun pool => { pool with allocated := pool.allocated + total }
        emit (.allocated p b total)
        note p (.allocated requested capacity total)
        return some b
      else
        drop b
        return none

/-- Registers a new buffer as detached. The reference of the caller becomes the handle; the arena
takes its own. -/
def enroll (p : PoolId) (b : BufferId) : PoolM σ Handle := do
  let key ← owning b (onArena p (·.register b))
  retain b
  return ⟨p, key, b⟩

/-- Allocates a detached buffer of the class of `requested`. Two critical sections are enough: the
arena is not touched while the heap is asked. -/
def allocate (p : PoolId) (requested : UInt64) : PoolM σ (Option Handle) := do
  reclaim p
  match ← make p requested with
  | none => return none
  | some b => some <$> enroll p b

/-- The same for a caller that is already inside a critical section and stays in it. -/
def allocateWithin (p : PoolId) (requested : UInt64) : PoolM σ (Option Handle) := do
  reclaim p
  (← make p requested).mapM (enroll p)

/-- Faults unless the handle belongs to the pool. -/
def checkOwner (p : PoolId) (h : Handle) : PoolM σ Unit := do
  if h.pool != p then throw (.foreign h.pool p)

/-- Takes a detached buffer out of the pool and gives up the handle. -/
def deallocate (p : PoolId) (h : Handle) : PoolM σ Unit := do
  let b ← owning h.buffer do
    checkOwner p h
    onArena p (·.unregister h.key)
  drop h.buffer
  retire p b
  drop b

end BufferPool.Pool
