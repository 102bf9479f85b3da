import BufferPool.World

/-!
# Operations on a world

An operation either answers or faults, and the world it leaves behind counts in both cases. A
reference that an operation has been handed, or has taken itself, is dropped when the operation
faults: `owning` sees to that. `onFault` puts any other clean-up behind an operation that faults,
and `ensuring` behind an operation whichever way it ends.
-/

namespace BufferPool

abbrev PoolM (σ : Type) := EStateM Fault (World σ)

namespace PoolM

variable {σ α : Type}

/-- Runs `act`; if it faults, changes the world by `cleanUp`. -/
def onFault (cleanUp : World σ → World σ) (act : PoolM σ α) : PoolM σ α := fun w =>
  match act w with
  | .ok a w => .ok a w
  | .error fault w => .error fault (cleanUp w)

/-- Runs `act`; if it faults, one reference to `b` is dropped. -/
def owning (b : BufferId) (act : PoolM σ α) : PoolM σ α := onFault (·.drop b) act

/-- Runs `act` and then changes the world by `finish`, also if it faults. -/
def ensuring (finish : World σ → World σ) (act : PoolM σ α) : PoolM σ α := fun w =>
  match act w with
  | .ok a w => .ok a (finish w)
  | .error fault w => .error fault (finish w)

/-- Faults unless the expectation is met, in the checked profile only. -/
def expect (met : Bool) (expectation : Expectation) : PoolM σ Unit := do
  if (← get).profile = .checked && !met then throw (.unexpected expectation)

def emit (e : Event) : PoolM σ Unit := modify (·.emit e)

def note (p : PoolId) (n : Note) : PoolM σ Unit := emit (.noted p n)

def getPool (p : PoolId) : PoolM σ Pool := do
  match (← get).pool? p with
  | some pool => return pool
  | none => throw (.noPool p)

def modifyPool (p : PoolId) (f : Pool → Pool) : PoolM σ Unit := modify (·.modifyPool p f)

def getBuffer (b : BufferId) : PoolM σ Buffer := return (← get).buffer b

def modifyBuffer (b : BufferId) (f : Buffer → Buffer) : PoolM σ Unit :=
  modify (·.modifyBuffer b f)

def retain (b : BufferId) : PoolM σ Unit := modify (·.retain b)

def drop (b : BufferId) : PoolM σ Unit := modify (·.drop b)

/-- Runs an update of the arena of a pool. -/
def onArena (p : PoolId) (f : Arena BufferId → Except Arena.Fault (α × Arena BufferId)) :
    PoolM σ α := do
  let pool ← getPool p
  match f pool.arena with
  | .ok (a, arena) =>
    modifyPool p fun pool => { pool with arena := arena }
    return a
  | .error fault => throw (.arena fault)

/-- Reads the arena of a pool. -/
def readArena (p : PoolId) (f : Arena BufferId → Except Arena.Fault α) : PoolM σ α :=
  onArena p fun arena => (f arena).map (·, arena)

/-- Makes `t` the owner of a buffer. While an operation runs, nobody else does, so waiting for a
buffer that is owned already would never end. -/
def acquire (b : BufferId) (t : Thread) : PoolM σ Unit := do
  if (← getBuffer b).owner.isNone then modifyBuffer b (·.claim t) else throw .neverAcquired

/-- One attempt to make `t` the owner of a buffer. -/
def tryAcquire (b : BufferId) (t : Thread) : PoolM σ Bool := do
  let (won, buffer) := (← getBuffer b).tryAcquire t
  modifyBuffer b fun _ => buffer
  return won

def release (b : BufferId) : PoolM σ Unit := modifyBuffer b (·.release)

/-- Forgets the content of a buffer, on behalf of its owner. -/
def reset (b : BufferId) (me : Thread) : PoolM σ Unit := do
  if (← getBuffer b).ownedBy me then modifyBuffer b (·.reset) else throw .resetByOther

def markTransient (b : BufferId) : PoolM σ Unit :=
  modifyBuffer b fun buffer => { buffer with transient := true }

/-- Marks a one-shot buffer as a lease. -/
def markLease (b : BufferId) : PoolM σ Unit := do
  expect (← getBuffer b).transient .leaseIsTransient
  modifyBuffer b fun buffer => { buffer with lease := true }

end PoolM

end BufferPool
