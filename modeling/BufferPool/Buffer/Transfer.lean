import BufferPool.Buffer.Basic

/-!
# Carrying staged bytes over

A producer whose write outgrows its buffer obtains a larger one and takes along what it has staged
but not committed. The copy goes from the reported write position of the old buffer to that of the
new one. Everything that could take it outside the two payloads, or let it touch a buffer that
somebody else may be writing to, is checked first, in a fixed order.
-/

namespace BufferPool

/-- Why nothing is carried over, in the order of the checks. -/
inductive TransferFault where
  | sameBuffer
  | outsidePayload
  | pastEnd (used : UInt64)
  | noRoom (available used requested : UInt64)
  | notOwned
  deriving DecidableEq

def TransferFault.message : TransferFault → String
  | .sameBuffer => "outstanding writes cannot be migrated into the same buffer"
  | .outsidePayload => "write position of the old buffer lies outside its payload"
  | .pastEnd used =>
    toString used.toNat ++ " outstanding bytes extend past the end of the old buffer"
  | .noRoom available used requested =>
    "new buffer has " ++ toString available.toNat ++ " bytes of free space but " ++
      toString used.toNat ++ " + " ++ toString requested.toNat ++ " are required"
  | .notOwned => "the new buffer must be acquired by the migrating thread"

namespace Buffer

/-- The sum of two sizes, unless it leaves the word. -/
def addSizes? (a b : UInt64) : Option UInt64 := if a ≤ a + b then some (a + b) else none

/-- Places bytes at the reported write position. A displacement may take it out of the payload, on
either side; what would lie outside is left out. -/
def receive (b : Buffer) (bytes : List UInt8) : Buffer :=
  { b with
    payload := b.payload.store b.reportedPos.toNat (bytes.drop (-b.reportedPos).toNat) }

/-- Copies the `used` bytes that follow the write position of `old` to the write position of `new`,
where `requested` more bytes must fit behind them. Nothing is committed, and `old` stays as it is.
`same` says whether the two are one buffer. -/
def carryOver (old new : Buffer) (same : Bool) (me : Thread) (used requested : UInt64) :
    Except TransferFault Buffer :=
  if same then .error .sameBuffer
  else if old.reportedPos < 0 ∨ old.capacity.toNat < old.reportedPos then .error .outsidePayload
  else
    let source := old.reportedPos.toNat
    if old.capacity.toNat - source < used.toNat then .error (.pastEnd used)
    else if (addSizes? used requested).all (new.freeSize < ·) then
      .error (.noRoom new.freeSize used requested)
    else if new.ownedBy me then .ok (new.receive (old.payload.slice source used.toNat))
    else .error .notOwned

end Buffer

end BufferPool
