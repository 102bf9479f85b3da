import BufferPool.PoolM

/-!
# The content of buffers, by number

Writing, reading and flushing through a handle. A write that is refused is an answer and no fault;
reading as somebody else than the owner, or carrying bytes over against the rules, is a fault.

What accesses a payload at a cursor expects the cursor to be no further than the end.
-/

namespace BufferPool.PoolM

variable {σ : Type}

/-- Replaces a buffer by the outcome of a write, unless it is refused. -/
def settle (b : BufferId) (outcome : Except WriteError Buffer) :
    PoolM σ (Except WriteError Unit) := do
  match outcome with
  | .ok buffer =>
    modifyBuffer b fun _ => buffer
    return .ok ()
  | .error e => return .error e

/-- Like `settle`, for a write that puts bytes at the write position of `buffer`. -/
def settleAt (b : BufferId) (buffer : Buffer) (outcome : Except WriteError Buffer) :
    PoolM σ (Except WriteError Unit) := do
  expect (!outcome.isOk || buffer.locates buffer.pos) .withinPayload
  settle b outcome

def stage (b : BufferId) (me : Thread) (bytes : List UInt8) : PoolM σ (Except WriteError Unit) := do
  let buffer ← getBuffer b
  settleAt b buffer (buffer.stage me bytes)

def commit (b : BufferId) (me : Thread) (count : UInt64) : PoolM σ (Except WriteError Unit) := do
  settle b ((← getBuffer b).commit me count)

def write (b : BufferId) (me : Thread) (bytes : List UInt8) : PoolM σ (Except WriteError Unit) := do
  let buffer ← getBuffer b
  settleAt b buffer (buffer.write me bytes)

/-- The committed bytes that are not flushed yet, for the owner. -/
def read (b : BufferId) (me : Thread) : PoolM σ (List UInt8) := do
  let buffer ← getBuffer b
  if buffer.ownedBy me then
    expect (buffer.locates buffer.top) .withinPayload
    return buffer.unflushed
  else throw .unflushedReadByOther

/-- Marks the content of a buffer as flushed. -/
def flush (b : BufferId) : PoolM σ UInt64 := do
  let (count, buffer) := (← getBuffer b).flush
  modifyBuffer b fun _ => buffer
  return count

/-- Carries staged bytes over from one buffer to another. The place they come from is looked up
before it is checked, the one they go to right before they are copied. -/
def carryOver (old new : BufferId) (me : Thread) (used requested : UInt64) : PoolM σ Unit := do
  let source ← getBuffer old
  let target ← getBuffer new
  expect (old == new || source.locates source.pos) .withinPayload
  match source.carryOver target (old == new) me used requested with
  | .ok buffer =>
    expect (target.locates target.pos) .withinPayload
    modifyBuffer new fun _ => buffer
  | .error fault => throw (.transfer fault)

end BufferPool.PoolM
