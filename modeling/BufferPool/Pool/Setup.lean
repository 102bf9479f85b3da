import BufferPool.Pool.Lists

/-!
# Setting pools up and closing them

A pool is set up with a number of buffers of the smallest class in its free lane. If one of them
cannot be had, the pool is closed again, and so it is when a check fails on the way. Closing a pool
releases its buffers in a fixed order: the full lane from the head, the free lane from the head, the
detached buffers in slot order.
-/

namespace BufferPool.Pool

open PoolM

variable {σ : Type}

/-- Fills the free lane with `remaining` buffers. The answer, if it fails, is how many it has. -/
def preallocate (p : PoolId) (allocated : Nat) : Nat → PoolM σ (Option Nat)
  | 0 => return none
  | remaining + 1 => do
    let pool ← getPool p
    match ← allocateWithin p pool.minimum with
    | none =>
      note p (.preallocationFailed allocated pool.config.cacheCount)
      return some allocated
    | some h =>
      owning h.buffer (insert p .free h)
      PoolM.drop h.buffer
      preallocate p (allocated + 1) remaining

/-- Empties a pool and closes it. Handles to its buffers stay valid for reading. -/
def close (p : PoolId) : PoolM σ Unit := do
  let detached := (← getPool p).arena.detached
  let buffers ← onArena p (·.drain)
  note p (.closing buffers.length detached)
  retireAll p buffers
  modifyPool p fun pool => { pool with live := false }

/-- Runs `act`; if it faults, the pool is closed. -/
def closing {α : Type} (p : PoolId) (act : PoolM σ α) : PoolM σ α := fun w =>
  match act w with
  | .ok a w => .ok a w
  | .error fault w =>
    match close p w with
    | .ok _ w => .error fault w
    | .error _ w => .error fault w

/-- Adds a pool without buffers under the next number. -/
def add (c : Config) (minimum : UInt64) (live : Bool) : PoolM σ Unit :=
  modify fun w => { w with pools := w.pools.push ⟨c, minimum, c.heap, .empty, 0, 0, live⟩ }

/-- Sets up a pool. Also a refused configuration uses up a number. -/
def build (c : Config) : PoolM σ (Except SetupError PoolId) := do
  let p := (← get).pools.size
  match c.validate with
  | .error e =>
    add c 0 false
    return .error e
  | .ok minimum =>
    add c minimum true
    match ← closing p (preallocate p 0 c.cacheCount) with
    | some allocated =>
      close p
      return .error (.preallocationFailed allocated c.cacheCount)
    | none =>
      note p (.ready minimum c.limit c.cacheCount)
      return .ok p

end BufferPool.Pool
