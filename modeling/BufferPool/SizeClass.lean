/-!
# Size classes

Every buffer of a pool has a capacity of the form `minimum * 2 ^ k`. A request is served by the
least class that covers it, and classes above `maximum` do not exist. Sizes are 64-bit words, so a
doubling may leave the word; `cover` stops before it does.
-/

namespace BufferPool.SizeClass

/-- The largest capacity a buffer may have: the largest size that is also a signed 64-bit word. -/
def maximum : UInt64 := 0x7fffffffffffffff

/-- Doubles `size` until it covers `requested`. There is no answer when the next doubling would
leave the word. A non-zero word can be doubled at most 63 times, so 65 steps never run out. -/
def cover (requested : UInt64) : Nat → UInt64 → Option UInt64
  | 0, _ => none
  | steps + 1, size =>
    if requested ≤ size then some size
    else if size ≤ maximum then cover requested steps (size * 2)
    else none

/-- The least class of `minimum` that covers `requested`, if it is at most `maximum`. -/
def ofRequest? (requested minimum : UInt64) : Option UInt64 :=
  if requested ≤ maximum then (cover requested 65 minimum).filter (· ≤ maximum) else none

/-- A request raised to the smallest class. -/
def atLeast (requested minimum : UInt64) : UInt64 :=
  if requested ≤ minimum then minimum else requested

end BufferPool.SizeClass
