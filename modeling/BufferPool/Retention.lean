/-!
# Retention

When a buffer that is not one-shot is released, a rule decides whether the pool keeps it for reuse.
The rule sees a census of the pool, taken after the buffer has left its lane and before it has left
the pool, and how often it was asked before, so every sequence of answers is the behaviour of some
rule.
-/

namespace BufferPool

structure Census where
  free : Nat
  full : Nat
  /-- How many buffers the pool was set up to keep. -/
  cacheCount : Nat
  /-- The total size of all buffers of the pool, the one under decision included. -/
  allocated : UInt64
  /-- The aggregate size the pool is meant to stay within; zero when there is none. -/
  limit : UInt64
  deriving DecidableEq

structure Retention where
  label : String
  /-- Whether each decision is reported. -/
  recorded : Bool
  /-- The answer to the next question, after so many earlier ones. -/
  keeps : Nat → Census → Bool

namespace Retention

/-- Keeps a buffer while fewer than the set number are free. -/
def upToCacheCount : Retention := ⟨"KeepCacheCount", false, fun _ c => c.free < c.cacheCount⟩

def always : Retention := ⟨"AlwaysCache", false, fun _ _ => true⟩

def never : Retention := ⟨"NeverCache", false, fun _ _ => false⟩

/-- The same rule with each decision reported. -/
def reported (r : Retention) : Retention :=
  ⟨"LogPolicy(Some(" ++ r.label ++ "))", true, r.keeps⟩

/-- Keeps a buffer while the pool is within its limit, and reports each decision. -/
def withinLimit : Retention := ⟨"LogPolicy(None)", true, fun _ c => c.allocated ≤ c.limit⟩

end Retention

end BufferPool
