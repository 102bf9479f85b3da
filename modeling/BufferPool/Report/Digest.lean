/-!
# Digests of byte strings

A digest tells a byte string by its length, its ends in hexadecimal and a weighted checksum. Strings
of up to 64 bytes are written out in full.
-/

namespace BufferPool.Report

structure Digest where
  size : Nat
  hex : String
  checksum : UInt32
  deriving DecidableEq

namespace Digest

/-- Two lower-case hexadecimal digits. -/
def hexByte (b : UInt8) : List Char :=
  [Nat.digitChar (b.toNat / 16), Nat.digitChar (b.toNat % 16)]

def hexText (bytes : List UInt8) : String := String.ofList (bytes.flatMap hexByte)

/-- The sum of the bytes weighted by their positions, which count from one, as a 32-bit word. -/
def weigh (bytes : List UInt8) : UInt32 :=
  (bytes.foldl (fun (sum, position) b => (sum + position * b.toUInt32, position + 1)) (0, 1)).1

def ofBytes (bytes : List UInt8) : Digest where
  size := bytes.length
  hex :=
    if bytes.length ≤ 64 then hexText bytes
    else hexText (bytes.take 16) ++ ".." ++ hexText (bytes.drop (bytes.length - 16))
  checksum := weigh bytes

end Digest

end BufferPool.Report
