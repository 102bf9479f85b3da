import BufferPool.Arena.Basic
import BufferPool.Buffer.Transfer
import BufferPool.Event

/-!
# Faults

A fault ends the operation in which it arises; what the operation has already changed stays changed.
Most faults are misuse by a caller. Some are only looked for in the checked profile. A request of
memory that cannot be met is no fault.
-/

namespace BufferPool

/-- Whether the checks that guard against misuse of the content of buffers are made. -/
inductive Profile where
  | checked
  | unchecked
  deriving DecidableEq

/-- What the checked profile asserts in addition. -/
inductive Expectation where
  /-- Callers ask only for sizes that have a class. -/
  | representable (requested : UInt64)
  | leaseIsTransient
  | fitsSmallestClass
  | flushed (unflushed : UInt64)
  | emptyWhenKept
  | notRetiredWhenKept
  | unownedWhenKept
  | someFree
  | ownedByRequester
  | leased
  | emptyAfterReset
  | notRetiredAfterReset
  /-- A cursor points into the payload, or right behind it. -/
  | withinPayload
  deriving DecidableEq

def Expectation.message : Expectation → String
  | .representable requested =>
    "requested size " ++ toString requested.toNat ++ " exceeds the maximum allocation size"
  | .leaseIsTransient => "a lease buffer must already be transient"
  | .fitsSmallestClass => "free list lookups are limited to the minimum element size"
  | .flushed unflushed =>
    "assertion `left == right` failed: a buffer must be fully flushed before it is released\n" ++
      "  left: " ++ toString unflushed.toNat ++ "\n right: 0"
  | .emptyWhenKept => "a buffer must be empty to be cached"
  | .notRetiredWhenKept => "a retired buffer cannot be cached"
  | .unownedWhenKept => "a buffer must be released by its owner before it is cached"
  | .someFree => "free list processing requires free buffers"
  | .ownedByRequester => "assertion `left == right` failed"
  | .leased => "assertion failed: buffer.lease()"
  | .emptyAfterReset => "assertion failed: buffer.empty()"
  | .notRetiredAfterReset => "assertion failed: !buffer.retired()"
  | .withinPayload => "assertion failed: offset <= self.capacity()"

inductive Fault where
  | arena (fault : Arena.Fault)
  /-- The handle belongs to another pool. -/
  | foreign (handle pool : PoolId)
  | unflushedReadByOther
  | resetByOther
  | transfer (fault : TransferFault)
  | unexpected (expectation : Expectation)
  /-- Waiting for a buffer that somebody owns never ends by itself. -/
  | neverAcquired
  /-- There is no such pool, or it is closed. -/
  | noPool (pool : PoolId)
  deriving DecidableEq

def Fault.message : Fault → String
  | .arena fault => fault.message
  | .foreign handle pool =>
    "attempted to use a buffer handle from a different memory space (handle space ID: " ++
      toString handle ++ ", current space ID: " ++ toString pool ++ ")"
  | .unflushedReadByOther =>
    "only the thread holding the acquisition may read the unflushed bytes of a buffer"
  | .resetByOther => "only the thread holding the acquisition may reinitialize a buffer"
  | .transfer fault => fault.message
  | .unexpected expectation => expectation.message
  | .neverAcquired => "the buffer is acquired and nobody will release it"
  | .noPool pool => "there is no memory space " ++ toString pool

end BufferPool
