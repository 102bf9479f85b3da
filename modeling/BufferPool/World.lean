import BufferPool.Arena.Update
import BufferPool.Config
import BufferPool.Fault

/-!
# The state of pools, buffers and handles

A world holds any number of pools and every buffer that was ever made for them. A pool knows its
buffers by number only; the content of a buffer and the number of references to it are kept in one
table of cells, because a buffer may outlive its pool as long as somebody holds a handle to it.

A reference to a buffer is its entry in the arena of a pool, a handle, or a place in a list that a
running operation holds. When the last one is dropped, the payload goes back to its heap.

What the callers keep between calls is the `client` part. No operation of a pool reads or changes
it.
-/

namespace BufferPool

/-- A counted reference to a buffer, with the key under which its pool registered it. -/
structure Handle where
  pool : PoolId
  key : Arena.Key
  buffer : BufferId
  deriving DecidableEq

/-- A buffer with the number of references to it. -/
structure Cell where
  buffer : Buffer
  refs : Nat
  /-- The pool whose heap granted the payload. -/
  home : PoolId
  /-- The number of the payload among those that recorded heaps granted. -/
  tag : Option Nat
  deriving DecidableEq

structure Pool where
  config : Config
  /-- The capacity of the smallest class. -/
  minimum : UInt64
  heap : Heap
  arena : Arena BufferId
  /-- The total size of all registered buffers. -/
  allocated : UInt64
  /-- How often the retention rule was asked. -/
  consultations : Nat
  /-- Whether the pool was set up and is not closed yet. -/
  live : Bool

structure World (σ : Type) where
  profile : Profile
  /-- The kind of every buffer made here. -/
  format : Format
  /-- What can make the set-up of a metered buffer fail. -/
  maker : Supply
  pools : Array Pool
  cells : Array Cell
  /-- How many payloads recorded heaps have granted. -/
  tags : Nat
  /-- What the running operations hold, the innermost first, such as what a traversal has
  captured. -/
  held : List (List Handle)
  /-- Everything that has happened, the latest first. -/
  events : List Event
  client : σ

namespace World

variable {σ : Type}

def empty (profile : Profile) (format : Format) (maker : Supply) (client : σ) : World σ :=
  ⟨profile, format, maker, #[], #[], 0, [], [], client⟩

/-- A pool that is set up and not closed. -/
def pool? (w : World σ) (p : PoolId) : Option Pool := w.pools[p]?.filter (·.live)

def buffer (w : World σ) (b : BufferId) : Buffer := (w.cells[b]?.map (·.buffer)).getD .absent

/-- How many references there are to a buffer. -/
def refs (w : World σ) (b : BufferId) : Nat := (w.cells[b]?.map (·.refs)).getD 0

def emit (w : World σ) (e : Event) : World σ := { w with events := e :: w.events }

def modifyPool (w : World σ) (p : PoolId) (f : Pool → Pool) : World σ :=
  { w with pools := w.pools.modify p f }

def modifyBuffer (w : World σ) (b : BufferId) (f : Buffer → Buffer) : World σ :=
  { w with cells := w.cells.modify b fun c => { c with buffer := f c.buffer } }

/-- One more reference to a buffer. -/
def retain (w : World σ) (b : BufferId) : World σ :=
  { w with cells := w.cells.modify b fun c => { c with refs := c.refs + 1 } }

/-- One reference less; the last one takes the payload along. -/
def drop (w : World σ) (b : BufferId) : World σ :=
  match w.cells[b]? with
  | none => w
  | some c =>
    let w := { w with cells := w.cells.setIfInBounds b { c with refs := c.refs - 1 } }
    if c.refs = 1 then w.emit (.freed c.home b c.tag c.buffer.capacity) else w

def dropAll (w : World σ) (handles : List Handle) : World σ :=
  handles.foldl (fun w h => w.drop h.buffer) w

/-- The size of all payloads granted by recorded heaps that have not gone back. -/
def outstanding (w : World σ) : Nat :=
  w.cells.toList.foldr (fun c n =>
    if c.tag.isSome && c.refs != 0 then c.buffer.capacity.toNat + n else n) 0

end World

end BufferPool
