import BufferPool.Supply
import BufferPool.Retention

/-!
# Configurations

What a pool is set up with, and the checks a configuration has to pass: the smallest capacity must
be a non-zero multiple of the page size, and so must the limit, except that it may be zero. The
smallest capacity is checked first. The page size is that of the host, which need not be the same
everywhere.
-/

namespace BufferPool

/-- The page size where the system does not tell its own. -/
def fallbackPageSize : UInt64 := 4096

/-- Why no pool is set up. -/
inductive SetupError where
  | zeroMinimum
  | notPageAligned (parameter : String) (value pageSize : UInt64)
  | preallocationFailed (allocated cacheCount : Nat)
  deriving DecidableEq

def SetupError.message : SetupError → String
  | .zeroMinimum => "minimum element size of a memory space must be non-zero"
  | .notPageAligned parameter value pageSize =>
    parameter ++ " = " ++ toString value.toNat ++ " is not a multiple of the page size " ++
      toString pageSize.toNat
  | .preallocationFailed allocated cacheCount =>
    "pre-allocation failed after " ++ toString allocated ++ " of " ++ toString cacheCount ++
      " cache buffers"

/-- Who is told of buffers that enter or leave a pool or are published. -/
structure Listener where
  label : String
  recorded : Bool
  deriving DecidableEq

def Listener.silent : Listener := ⟨"NoopCallback", false⟩

def Listener.recording : Listener := ⟨"LogCallback", true⟩

structure Config where
  /-- The smallest capacity; the page size when absent. -/
  minimum : Option UInt64
  limit : UInt64
  /-- How many buffers are allocated in advance. -/
  cacheCount : Nat
  heap : Heap
  retention : Retention
  listener : Listener
  /-- What the host says the size of its pages is. -/
  pageSize : UInt64

namespace Config

def standard : Config := ⟨none, 0, 0, .system, .upToCacheCount, .silent, fallbackPageSize⟩

/-- Nothing is a multiple of a page size of zero. -/
def requirePageAligned (pageSize : UInt64) (parameter : String) (value : UInt64) :
    Except SetupError Unit :=
  if pageSize ≠ 0 ∧ value % pageSize = 0 then .ok ()
  else .error (.notPageAligned parameter value pageSize)

/-- The smallest capacity of the pool, if the sizes are acceptable. -/
def validate (c : Config) : Except SetupError UInt64 := do
  let minimum := c.minimum.getD c.pageSize
  if minimum = 0 then throw .zeroMinimum
  requirePageAligned c.pageSize "min_elem_size" minimum
  requirePageAligned c.pageSize "limit_size" c.limit
  return minimum

end Config

end BufferPool
