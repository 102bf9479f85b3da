/-!
# Payloads

A payload is the byte storage of one buffer. Fresh memory is not zero: every byte that was never
stored reads as the filler. Only the stored part is kept as data, so a large payload costs nothing
until it is used. All reading goes through `byteAt` and `slice`: a slice shows the bytes one by one,
and a store changes those it covers inside the payload and no others.
-/

namespace BufferPool

structure Payload where
  capacity : UInt64
  /-- What fresh memory reads as. -/
  filler : UInt8
  /-- The bytes from the start of the payload up to the last one ever stored. -/
  written : List UInt8
  deriving DecidableEq

namespace Payload

def fresh (capacity : UInt64) : Payload := ⟨capacity, 0xcd, []⟩

def byteAt (p : Payload) (offset : Nat) : UInt8 := p.written.getD offset p.filler

/-- The `count` bytes from `offset` on. -/
def slice (p : Payload) (offset count : Nat) : List UInt8 :=
  ((p.written.drop offset).take count).rightpad count p.filler

/-- The bytes of a store at `offset` that lie inside the payload. -/
def clip (p : Payload) (offset : Nat) (bytes : List UInt8) : List UInt8 :=
  bytes.take (p.capacity.toNat - offset)

/-- Replaces the bytes from `offset` on by `bytes`. What would lie behind the end of the payload is
left out, and a store that covers nothing leaves the payload as it is. -/
def store (p : Payload) (offset : Nat) (bytes : List UInt8) : Payload :=
  match p.clip offset bytes with
  | [] => p
  | bytes@(_ :: _) =>
    { p with
      written := (p.written.rightpad offset p.filler).take offset ++ bytes ++
        p.written.drop (offset + bytes.length) }

@[simp] theorem capacity_store (p : Payload) (offset : Nat) (bytes : List UInt8) :
    (p.store offset bytes).capacity = p.capacity := by
  unfold store
  split <;> rfl

/-- A store changes the bytes that it covers inside the payload, and no others. -/
theorem byteAt_store (p : Payload) (offset : Nat) (bytes : List UInt8) (i : Nat) :
    (p.store offset bytes).byteAt i =
      if offset ≤ i ∧ i < p.capacity.toNat then bytes.getD (i - offset) (p.byteAt i)
      else p.byteAt i := by
  have clipped : ∀ j, (p.clip offset bytes)[j]? =
      if j < p.capacity.toNat - offset then bytes[j]? else none := fun j => List.getElem?_take
  have before : ((p.written.rightpad offset p.filler).take offset).length = offset := by
    simp only [List.rightpad, List.length_take, List.length_append, List.length_replicate]
    omega
  unfold store
  split
  · next h =>
    have := clipped (i - offset)
    rw [h] at this
    simp only [List.getD_eq_getElem?_getD]
    grind
  · next b bs h =>
    have := clipped (i - offset)
    rw [h] at this
    simp only [byteAt, List.getD_eq_getElem?_getD, List.append_assoc, List.getElem?_append, before]
    by_cases inside : offset ≤ i
    · simp only [inside, Nat.not_lt.2 inside, true_and, if_false, List.getElem?_drop]
      grind
    · simp only [inside, Nat.lt_of_not_le inside, false_and, if_true, if_false,
        List.getElem?_take_of_lt (Nat.lt_of_not_le inside), List.rightpad, List.getElem?_append,
        List.getElem?_replicate]
      grind

@[simp] theorem length_slice (p : Payload) (offset count : Nat) :
    (p.slice offset count).length = count := by
  simp only [slice, List.rightpad, List.length_append, List.length_replicate, List.length_take]
  omega

/-- A slice shows the bytes from its offset on. -/
theorem getElem?_slice (p : Payload) (offset count i : Nat) :
    (p.slice offset count)[i]? = if i < count then some (p.byteAt (offset + i)) else none := by
  simp only [slice, byteAt, List.getD_eq_getElem?_getD, List.rightpad]
  grind

end Payload

end BufferPool
