import BufferPool.Pool.Traversal
import BufferPool.Config

/-!
# Commands

The language in which a desk is told what to do. A call is a single operation; the other commands
run calls under a condition, repeatedly, inside one critical section, or for every buffer along a
route. A call names its operands by the names under which the desk keeps handles, or refers to the
buffer that is being visited.
-/

namespace BufferPool.Desk

inductive Operand where
  | named (name : String)
  /-- The buffer under the innermost visit. -/
  | visited
  deriving DecidableEq

/-- What can be asked of a single buffer. -/
inductive BufferCall where
  | info
  | debug
  /-- Without a thread, the one that runs acquires. -/
  | acquire (t : Option Thread)
  | tryAcquire (t : Option Thread)
  | release
  | write (bytes : List UInt8)
  | stage (bytes : List UInt8)
  | commit (count : UInt64)
  | read
  | flush
  | reset
  | setRetired (retired : Bool)
  | markTransient
  | markLease
  | displace (distance : Int)

/-- The operations that may return a handle. -/
inductive Request where
  | allocate
  | allocateWithin
  | find
  | provide
  | provideAcquired
  | provideTransient
  | provideLease
  | provideFull
  | provideTransientFull
  | provideLeaseTo (lane : Lane)
  | take
  | takeRetrying (retries : Nat)
  | takeDetached
  | takeToFull
  | obtainFull
  | takeLeaseRetrying (retries : Nat)
  | obtainLease

/-- The operations that consume a handle. -/
inductive Giving where
  | deallocate
  | release (lane : Lane)
  | giveBack (lane : Lane)

/-- The operations that change the place of a buffer. -/
inductive Placing where
  | insert (lane : Lane)
  | remove (lane : Lane)
  | move (source : Lane)

inductive Call where
  | clone (h : Operand) (into : String)
  | discard (h : Operand)
  | same (h other : Operand)
  | onBuffer (h : Operand) (call : BufferCall)
  | carryOver (h target : Operand) (used requested : UInt64)
  /-- Bounds how many buffers may still be set up. -/
  | allowBuffers (allowance : Option Nat)
  /-- Ends the innermost traversal after the current visit. -/
  | stop
  | build (config : Config) (debug : Bool)
  | close
  /-- Bounds how many requests the heap of the pool still grants, if it is recorded. -/
  | allowRequests (allowance : Option Nat)
  | obtain (request : Request) (size : UInt64) (t : Option Thread) (into : Option String)
  | pick (lane : Lane) (dir : Direction) (n : Nat) (into : Option String)
  | give (h : Operand) (keep : Bool) (giving : Giving)
  | place (h : Operand) (placing : Placing)
  | inLane (h : Operand) (lane : Lane)
  | counts
  | list (lane : Lane) (dir : Direction)
  | debugSection
  | query
  | debugPool
  /-- Without a maker, the thread that runs makes the sweep. -/
  | sweep (lane : Lane) (route : Pool.Route) (dir : Direction) (maker : Option Thread)
      (passes : Nat)

/-- Where a call may be made. -/
inductive Scope where
  | anywhere
  /-- Inside a critical section, or in one of its own. -/
  | critical
  /-- Outside critical sections only. -/
  | outside
  /-- Neither in a critical section nor in the body of another command. -/
  | outermost
  deriving DecidableEq

inductive Question where
  | transient
  | lease
  | retired
  | empty
  | owned
  | mine
  | unflushed

inductive Command where
  /-- `name` is what the call is called in a complaint about its place. -/
  | call (name : String) (scope : Scope) (p : PoolId) (call : Call)
  /-- A command that could not be read. -/
  | malformed (complaint : String)
  | branch (h : Operand) (question : Question) (yes no : List Command)
  | repeated (n : Nat) (body : List Command)
  | locked (p : PoolId) (body : List Command)
  | visiting (name : String) (p : PoolId) (route : Pool.Route) (dir : Direction)
      (stopAfter : Option Nat) (body : List Command)
  deriving Inhabited

end BufferPool.Desk
