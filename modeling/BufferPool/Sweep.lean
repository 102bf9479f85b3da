import BufferPool.Pool.Traversal
import BufferPool.Producer

/-!
# Sweeps

A sweep visits the buffers of a lane after they have been drained. One-shot buffers are released
from the lane. Every other buffer is emptied in place and made available again, unless another
thread owns it: then a later sweep gets it. A sweep acquires for the thread that made it, while a
buffer may only be emptied by the thread that runs.
-/

namespace BufferPool

structure Sweep where
  pool : PoolId
  lane : Lane
  /-- The thread that made the sweep, for which it acquires. -/
  maker : Thread
  /-- How many buffers were not skipped, as a word that wraps. -/
  processed : UInt64
  deriving DecidableEq

namespace Sweep

open PoolM

variable {σ : Type}

def counted (s : Sweep) : Sweep := { s with processed := s.processed + 1 }

/-- Makes sure that the buffer is acquired, if it can be. -/
def hold (s : Sweep) (me : Thread) (b : BufferId) : PoolM σ Bool := do
  if (← getBuffer b).ownedBy me then return true else tryAcquire b s.maker

/-- Empties an acquired buffer and makes it available. -/
def recycle (me : Thread) (b : BufferId) : PoolM σ Unit := do
  reset b me
  expect (← getBuffer b).isEmpty .emptyAfterReset
  expect (!(← getBuffer b).retired) .notRetiredAfterReset
  PoolM.release b

/-- One visit on thread `me`. A sweep never stops early. -/
def visit (me : Thread) (s : Sweep) (h : Handle) : PoolM σ (Bool × Sweep) := do
  if (← getBuffer h.buffer).transient then
    retain h.buffer
    Pool.giveBack s.pool s.lane h
    return (true, s.counted)
  else if ← s.hold me h.buffer then
    recycle me h.buffer
    return (true, s.counted)
  else return (true, s)

/-- One pass on thread `me`. The route need not lead over the lane that the sweep releases from. -/
def pass (me : Thread) (route : Pool.Route) (dir : Direction) (s : Sweep) : PoolM σ Sweep :=
  return (← Pool.travel s.pool route dir (visit me) s).2

/-- Several passes; the answer is how many buffers were processed after each of them. -/
def passes (me : Thread) (route : Pool.Route) (dir : Direction) :
    Nat → Sweep → PoolM σ (List UInt64)
  | 0, _ => return []
  | n + 1, s => do
    let s ← s.pass me route dir
    return s.processed :: (← passes me route dir n s)

end Sweep

end BufferPool
