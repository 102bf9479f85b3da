import BufferPool.Arena.Basic
import BufferPool.Retention

/-!
# Events

Everything a pool does that somebody outside can notice: requests to its heap, notices to its
listener, questions to its retention rule, and notes for a log. Whether an event is shown is decided
when it is reported; here it is recorded in any case. An event says which buffer it is about even
where the notice itself carries only a size. What puts a buffer into a lane says under which key.
-/

namespace BufferPool

/-- Pools are numbered in the order in which they are set up, failed attempts included. -/
abbrev PoolId := Nat

/-- Buffers are numbered in the order in which their payloads are granted. -/
abbrev BufferId := Nat

/-- What a pool writes to its log. -/
inductive Note where
  | ready (minimum limit : UInt64) (cacheCount : Nat)
  | preallocationFailed (allocated cacheCount : Nat)
  | closing (buffers detached : Nat)
  | tooLarge (requested : UInt64)
  | heapFailed (requested capacity : UInt64)
  | allocated (requested capacity total : UInt64)
  | reclaiming (count : Nat)
  | deallocated (total : UInt64)
  | found (size : UInt64)
  | notFound (attempt retries : Nat) (size : UInt64)
  | releasingTransient
  | traversing (lane : Lane) (dir : Direction) (length : Nat)
  deriving DecidableEq

inductive Event where
  /-- The heap granted a payload. A recorded heap also numbers it. -/
  | granted (pool : PoolId) (buffer : BufferId) (tag : Option Nat) (size : UInt64)
  /-- The limits of the heap forbade a payload. -/
  | refused (pool : PoolId) (size : UInt64)
  /-- The limits of the heap permitted a payload, but there was no memory for it. -/
  | unserved (pool : PoolId) (size : UInt64)
  /-- The payload went back to its heap. -/
  | freed (pool : PoolId) (buffer : BufferId) (tag : Option Nat) (size : UInt64)
  | allocated (pool : PoolId) (buffer : BufferId) (total : UInt64)
  | deallocated (pool : PoolId) (buffer : BufferId) (total : UInt64)
  | published (pool : PoolId) (buffer : BufferId) (key : Arena.Key) (total : UInt64)
  /-- A buffer was put at the head of a lane. -/
  | inserted (pool : PoolId) (lane : Lane) (key : Arena.Key)
  /-- A released buffer was put at the head of the free lane. -/
  | kept (pool : PoolId) (key : Arena.Key)
  | consulted (pool : PoolId) (census : Census) (keep : Bool)
  | noted (pool : PoolId) (note : Note)
  deriving DecidableEq

end BufferPool
