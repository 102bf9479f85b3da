import BufferPool.Pool.Lists

/-!
# What producers and consumers call

The operations by which a thread obtains a buffer, publishes it and gives it back, composed from
those of the pool. Every name says where the buffer comes from and where it ends up: `provide`
allocates, `take` looks into the free lane and never allocates, `obtain` does the one and then the
other. A missing answer means that there is no memory, or no free buffer that fits.

Requests are raised to the smallest class before they are served, except where a free buffer is
looked up. Unless it says otherwise, an operation returns a buffer that is acquired for `t`.
-/

namespace BufferPool.Pool

open PoolM

variable {σ : Type}

/-- Runs `act` on the buffer that was obtained, if any, and returns its handle. -/
def onSome (obtained : Option Handle) (act : Handle → PoolM σ Unit) : PoolM σ (Option Handle) := do
  match obtained with
  | none => return none
  | some h =>
    owning h.buffer (act h)
    return some h

/-- A detached buffer that nobody owns. -/
def provide (p : PoolId) (size : UInt64) : PoolM σ (Option Handle) := do
  allocate p (SizeClass.atLeast size (← getPool p).minimum)

/-- A detached buffer. -/
def provideAcquired (p : PoolId) (size : UInt64) (t : Thread) : PoolM σ (Option Handle) := do
  onSome (← provide p size) fun h => acquire h.buffer t

/-- A detached one-shot buffer. -/
def provideTransient (p : PoolId) (size : UInt64) (t : Thread) : PoolM σ (Option Handle) := do
  onSome (← provideAcquired p size t) fun h => do
    expect ((← getBuffer h.buffer).ownedBy t) .ownedByRequester
    markTransient h.buffer

/-- A detached lease. -/
def provideLease (p : PoolId) (size : UInt64) (t : Thread) : PoolM σ (Option Handle) := do
  onSome (← provideTransient p size t) fun h => markLease h.buffer

/-- A new buffer at the head of the full lane, all in one critical section. -/
def provideFull (p : PoolId) (size : UInt64) (t : Thread) : PoolM σ (Option Handle) := do
  onSome (← allocateWithin p (SizeClass.atLeast size (← getPool p).minimum)) fun h => do
    acquire h.buffer t
    insert p .full h

/-- A one-shot buffer at the head of the full lane. -/
def provideTransientFull (p : PoolId) (size : UInt64) (t : Thread) : PoolM σ (Option Handle) := do
  onSome (← provideTransient p size t) fun h => insert p .full h

/-- A lease at the head of a lane. -/
def provideLeaseTo (p : PoolId) (lane : Lane) (size : UInt64) (t : Thread) :
    PoolM σ (Option Handle) := do
  onSome (← provideLease p size t) fun h => do
    insert p lane h
    expect (← getBuffer h.buffer).lease .leased

/-- A free buffer, which stays in the free lane. -/
def take (p : PoolId) (size : UInt64) (t : Thread) : PoolM σ (Option Handle) := find p size t

/-- The first success of `remaining` attempts to take a free buffer. -/
def takeWithin (p : PoolId) (size : UInt64) (retries : Nat) (t : Thread) :
    Nat → PoolM σ (Option Handle)
  | 0 => return none
  | remaining + 1 => do
    match ← take p size t with
    | some h => return some h
    | none =>
      note p (.notFound (retries - (remaining + 1)) retries size)
      takeWithin p size retries t remaining

/-- A free buffer, which stays in the free lane, with up to `retries` attempts. -/
def takeRetrying (p : PoolId) (size : UInt64) (retries : Nat) (t : Thread) :
    PoolM σ (Option Handle) := do
  expect (size ≤ (← getPool p).minimum) .fitsSmallestClass
  takeWithin p size retries t retries

/-- A free buffer, taken out of the free lane. -/
def takeDetached (p : PoolId) (size : UInt64) (t : Thread) : PoolM σ (Option Handle) := do
  onSome (← find p size t) fun h => remove p .free h

/-- A free buffer, moved to the head of the full lane. -/
def takeToFull (p : PoolId) (size : UInt64) (t : Thread) : PoolM σ (Option Handle) := do
  expect (size ≤ (← getPool p).minimum) .fitsSmallestClass
  onSome (← find p size t) fun h => move p .free h

/-- A buffer at the head of the full lane: a free one if the request fits the smallest class, else a
new one. -/
def obtainFull (p : PoolId) (size : UInt64) (t : Thread) : PoolM σ (Option Handle) := do
  let minimum := (← getPool p).minimum
  let size := SizeClass.atLeast size minimum
  if size ≤ minimum then
    match ← takeToFull p size t with
    | some h => return some h
    | none => provideFull p size t
  else provideFull p size t

/-- Marks a buffer as a one-shot lease. -/
def makeLease (h : Handle) : PoolM σ Unit := do
  markTransient h.buffer
  markLease h.buffer

/-- A free buffer turned into a lease, which stays in the free lane. -/
def takeLeaseRetrying (p : PoolId) (size : UInt64) (retries : Nat) (t : Thread) :
    PoolM σ (Option Handle) := do
  onSome (← takeRetrying p size retries t) makeLease

/-- A lease: a free buffer left where it is, else a new one at the head of the full lane. -/
def obtainLease (p : PoolId) (size : UInt64) (t : Thread) : PoolM σ (Option Handle) := do
  match ← take p size t with
  | some h =>
    onSome (some h) fun h => do
      makeLease h
      expect ((← getBuffer h.buffer).ownedBy t) .ownedByRequester
  | none => provideLeaseTo p .full size t

/-- Releases a drained buffer from a lane and gives up the handle. -/
def giveBack (p : PoolId) (lane : Lane) (h : Handle) : PoolM σ Unit := do
  owning h.buffer do
    let unflushed := (← getBuffer h.buffer).unflushedSize
    expect (unflushed == 0) (.flushed unflushed)
  release p lane h

end BufferPool.Pool
