/-!
# Supplies and heaps

A supply answers requests for a number of bytes with yes or no. Its limits come first: it refuses
sizes above a largest one and grants no more requests than its allowance. What the limits permit is
left to its rule, which sees how often the supply was asked and how often it granted, so every
sequence of answers is the behaviour of some supply. Heaps are supplies, and so is whatever can make
the set-up of a fresh buffer fail.
-/

namespace BufferPool

/-- What a supply remembers of its own answers. -/
structure Tally where
  asked : Nat
  granted : Nat
  deriving DecidableEq

structure Supply where
  /-- How many more requests may be granted; absent when there is no bound. -/
  allowance : Option Nat
  /-- The largest size that may be granted; absent when there is no bound. -/
  largest : Option UInt64
  /-- Whether a request within the limits can be served. -/
  rule : Tally → UInt64 → Bool
  tally : Tally

namespace Supply

/-- Grants whatever the allowance permits. -/
def within (allowance : Option Nat) : Supply := ⟨allowance, none, fun _ _ => true, ⟨0, 0⟩⟩

/-- Whether the limits leave room for the next request. -/
def permits (s : Supply) (size : UInt64) : Bool :=
  s.allowance != some 0 && s.largest.all (size ≤ ·)

/-- The answer to the next request. -/
def grants (s : Supply) (size : UInt64) : Bool := s.permits size && s.rule s.tally size

/-- The supply after it has answered a request. -/
def after (s : Supply) (size : UInt64) : Supply :=
  if s.grants size then
    { s with
      allowance := s.allowance.map (· - 1)
      tally := ⟨s.tally.asked + 1, s.tally.granted + 1⟩ }
  else { s with tally := { s.tally with asked := s.tally.asked + 1 } }

end Supply

/-- Where a pool takes its payloads from. What a recorded heap does is reported, except for requests
that its limits permit and the memory behind it cannot serve. -/
structure Heap where
  label : String
  recorded : Bool
  supply : Supply

namespace Heap

/-- The largest size that, rounded up to the alignment of payloads, is still a signed word. -/
def layoutLimit : UInt64 := 0x7ffffffffffffff0

/-- More memory than any machine at hand can supply. -/
def memoryLimit : UInt64 := 0x10000000000

/-- Whether the memory of the system can serve a request. Every payload it serves is aligned to 16
bytes. -/
def systemServes (size : UInt64) : Bool :=
  size != 0 && size ≤ layoutLimit && size < memoryLimit

/-- The memory of the system, unrecorded. -/
def system : Heap := ⟨"SystemHeap", false, ⟨none, none, fun _ size => systemServes size, ⟨0, 0⟩⟩⟩

/-- The memory of the system behind a recorder with limits of its own. What they forbid does not
reach the memory. -/
def recording (allowance : Option Nat) (largest : UInt64) : Heap :=
  ⟨"DriverHeap", true, ⟨allowance, some largest, fun _ size => systemServes size, ⟨0, 0⟩⟩⟩

/-- Changes the allowance of a recorded heap; the bare memory of the system keeps none. -/
def allow (h : Heap) (allowance : Option Nat) : Heap :=
  if h.recorded then { h with supply := { h.supply with allowance := allowance } } else h

end Heap

end BufferPool
