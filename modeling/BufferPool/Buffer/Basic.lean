import BufferPool.Payload

/-!
# Write buffers

A payload with two cursors: the bytes before `top` are flushed, those between `top` and `pos` are
committed but not flushed, and those from `pos` on are free space. One thread at a time may own a
buffer, and only the owner may write, read the unflushed bytes or reset the cursors. Flushing needs
no ownership.

The cursors are 64-bit words and their differences are taken as words, so a difference means what it
says only while `top ≤ pos ≤ capacity`.

A metered buffer also counts the attempts to acquire it, and can be made to report a write position
that is off by a fixed distance.
-/

namespace BufferPool

/-- A thread that can own buffers. -/
abbrev Thread := Nat

/-- What a thread is called inside a buffer, where zero means that nobody owns it. -/
def Thread.token (t : Thread) : Nat := t + 1

/-- Why a buffer refuses bytes. -/
inductive WriteError where
  | notAcquired
  | insufficientSpace (requested : Nat) (available : UInt64)
  deriving DecidableEq

def WriteError.message : WriteError → String
  | .notAcquired => "the calling thread has not acquired the buffer it attempted to write into"
  | .insufficientSpace requested available =>
    "write of " ++ toString requested ++ " bytes does not fit into " ++
      toString available.toNat ++ " bytes of free space"

/-- The instruments of a metered buffer. -/
structure Meter where
  /-- How often the buffer was tried to be acquired, successfully or not. -/
  attempts : Nat
  /-- How far the reported write position is from the real one. -/
  displacement : Int
  deriving DecidableEq

/-- The two kinds of buffer a pool may manage. -/
inductive Format where
  | plain
  | metered
  deriving DecidableEq

/-- The size of a buffer's own bookkeeping, which counts towards its total size. -/
def Format.headerSize : Format → UInt64
  | .plain => 72
  | .metered => 88

structure Buffer where
  payload : Payload
  header : UInt64
  top : UInt64
  pos : UInt64
  owner : Option Thread
  /-- The buffer is one-shot: it is deallocated when it is released. -/
  transient : Bool
  /-- The buffer is an extra one, granted beyond normal allocation. -/
  lease : Bool
  /-- The buffer is drained and must not be handed out. -/
  retired : Bool
  meter : Option Meter
  deriving DecidableEq

namespace Buffer

def fresh (format : Format) (capacity : UInt64) : Buffer where
  payload := .fresh capacity
  header := format.headerSize
  top := 0
  pos := 0
  owner := none
  transient := false
  lease := false
  retired := false
  meter := match format with
    | .plain => none
    | .metered => some ⟨0, 0⟩

/-- Stands in for a buffer that does not exist. -/
def absent : Buffer := fresh .plain 0

def capacity (b : Buffer) : UInt64 := b.payload.capacity

def totalSize (b : Buffer) : UInt64 := b.header + b.capacity

def freeSize (b : Buffer) : UInt64 := b.capacity - b.pos

/-- Whether there is a place in the payload, or right behind it, that the offset stands for. -/
def locates (b : Buffer) (offset : UInt64) : Bool := offset ≤ b.capacity

/-- How many committed bytes are not flushed yet; none if the cursors are out of order. -/
def unflushedSize (b : Buffer) : UInt64 := if b.top ≤ b.pos then b.pos - b.top else 0

def isEmpty (b : Buffer) : Bool := b.pos == 0

def ownedBy (b : Buffer) (t : Thread) : Bool := b.owner == some t

/-- The three marks as bits. -/
def flags (b : Buffer) : Nat := b.transient.toNat + 2 * b.lease.toNat + 4 * b.retired.toNat

/-- Where the buffer says its write position is, counted from the start of its payload. -/
def reportedPos (b : Buffer) : Int :=
  b.pos.toNat + (b.meter.map (·.displacement)).getD 0

/-- Makes `t` the owner, whoever owned the buffer before. -/
def claim (b : Buffer) (t : Thread) : Buffer := { b with owner := some t }

def release (b : Buffer) : Buffer := { b with owner := none }

def countAttempt (b : Buffer) : Buffer :=
  { b with meter := b.meter.map fun m => { m with attempts := m.attempts + 1 } }

/-- One attempt to acquire the buffer, which succeeds only if nobody owns it. -/
def tryAcquire (b : Buffer) (t : Thread) : Bool × Buffer :=
  if b.owner.isNone then (true, b.countAttempt.claim t) else (false, b.countAttempt)

/-- Places bytes at the write position without moving it. -/
def stage (b : Buffer) (me : Thread) (bytes : List UInt8) : Except WriteError Buffer :=
  if b.ownedBy me then
    if bytes.length ≤ b.freeSize.toNat then
      .ok { b with payload := b.payload.store b.pos.toNat bytes }
    else .error (.insufficientSpace bytes.length b.freeSize)
  else .error .notAcquired

/-- Moves the write position over bytes staged before. -/
def commit (b : Buffer) (me : Thread) (count : UInt64) : Except WriteError Buffer :=
  if b.ownedBy me then
    if count ≤ b.freeSize then .ok { b with pos := b.pos + count }
    else .error (.insufficientSpace count.toNat b.freeSize)
  else .error .notAcquired

/-- Stages bytes and commits them. -/
def write (b : Buffer) (me : Thread) (bytes : List UInt8) : Except WriteError Buffer := do
  let b ← b.stage me bytes
  b.commit me (UInt64.ofNat bytes.length)

/-- The committed bytes that are not flushed yet. -/
def unflushed (b : Buffer) : List UInt8 := b.payload.slice b.top.toNat (b.pos - b.top).toNat

/-- Marks every committed byte as flushed; the count says how many were not before. -/
def flush (b : Buffer) : UInt64 × Buffer := (b.pos - b.top, { b with top := b.pos })

/-- Forgets the content and the retirement. Ownership and the other marks stay. -/
def reset (b : Buffer) : Buffer := { b with pos := 0, top := 0, retired := false }

/-- Shifts the reported write position; a plain buffer has no such instrument. -/
def displace (b : Buffer) (distance : Int) : Buffer :=
  { b with meter := b.meter.map fun m => { m with displacement := distance } }

end Buffer

end BufferPool
