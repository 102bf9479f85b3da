import BufferPool.Proofs.Buffer.Cursors

/-!
# What is carried over

Bytes are carried over from one buffer to another when five conditions hold, and they are refused
otherwise. Then the bytes behind the position that the source reports are copied behind the write
position of the target. Committing them afterwards is as good as having written them.

The conditions are stated in natural numbers and integers, where nothing wraps: the sum of two sizes
may well leave the word, and a source may report any position.
-/

namespace BufferPool

namespace Payload

variable {p : Payload} {offset : Nat} {bytes : List UInt8}

/-- What is stored inside the payload can be read back. -/
theorem slice_store (h : offset + bytes.length ≤ p.capacity.toNat) :
    (p.store offset bytes).slice offset bytes.length = bytes := by
  apply List.ext_getElem?
  intro i
  rw [getElem?_slice, byteAt_store]
  split_ifs with hi hin
  · rw [Nat.add_sub_cancel_left, List.getD_eq_getElem?_getD, List.getElem?_eq_getElem hi,
      Option.getD_some]
  · omega
  · rw [List.getElem?_eq_none (Nat.le_of_not_lt hi)]

end Payload

namespace Buffer

variable {old new b b' : Buffer} {me : Thread} {used requested : UInt64} {bytes : List UInt8}

/-- Two sizes find room together if their exact sum does. -/
theorem addSizes?_all_lt {a b free : UInt64} :
    (addSizes? a b).all (free < ·) = false ↔ a.toNat + b.toNat ≤ free.toNat := by
  have ha := a.toNat_lt
  have hb := b.toNat_lt
  have hfree := free.toNat_lt
  have hsum : (a + b).toNat = (a.toNat + b.toNat) % 2 ^ 64 := UInt64.toNat_add a b
  unfold addSizes?
  split_ifs with hword <;> rw [UInt64.le_iff_toNat_le] at hword
  · simp only [Option.all_some, decide_eq_false_iff_not, UInt64.lt_iff_toNat_lt]
    omega
  · simp only [Option.all_none, Bool.true_eq_false, false_iff]
    omega

/-- The cursors are in order, and the buffer reports the position at which it writes. -/
structure Faithful (b : Buffer) : Prop extends InOrder b where
  reportedPos : b.reportedPos = b.pos.toNat

/-- What must hold for bytes to be carried over from `old` to another buffer `new`. -/
structure Carriable (old new : Buffer) (me : Thread) (used requested : UInt64) : Prop where
  start_le : 0 ≤ old.reportedPos
  le_end : old.reportedPos ≤ old.capacity.toNat
  used_le : (used.toNat : Int) ≤ old.capacity.toNat - old.reportedPos
  room : used.toNat + requested.toNat ≤ new.freeSize.toNat
  owner : new.owner = some me

/-- Under the conditions the bytes behind the reported position are handed to the target. -/
theorem carryOver_of_carriable (h : Carriable old new me used requested) :
    old.carryOver new false me used requested =
      .ok (new.receive (old.payload.slice old.reportedPos.toNat used.toNat)) := by
  have hstart := h.start_le
  have hend := h.le_end
  have hused := h.used_le
  have hinside : ¬(old.reportedPos < 0 ∨ (old.capacity.toNat : Int) < old.reportedPos) := by omega
  have hpast : ¬old.capacity.toNat - old.reportedPos.toNat < used.toNat := by omega
  have hroom : (addSizes? used requested).all (new.freeSize < ·) = false :=
    addSizes?_all_lt.2 h.room
  have hmine : new.ownedBy me = true := beq_iff_eq.2 h.owner
  unfold carryOver
  dsimp only
  rw [if_neg Bool.false_ne_true, if_neg hinside, if_neg hpast, hroom, if_neg Bool.false_ne_true,
    if_pos hmine]

/-- What is not refused meets the conditions. -/
theorem carriable_of_ok {same : Bool} (h : old.carryOver new same me used requested = .ok b') :
    same = false ∧ Carriable old new me used requested := by
  unfold carryOver at h
  dsimp only at h
  split_ifs at h with hsame hinside hpast hroom hmine
  refine ⟨Bool.eq_false_iff.2 hsame, ?_, ?_, ?_, ?_, beq_iff_eq.1 hmine⟩
  · omega
  · omega
  · omega
  · exact addSizes?_all_lt.1 (Bool.eq_false_iff.2 hroom)

/-- Without the conditions the transfer is refused. -/
theorem carryOver_refused {same : Bool} (h : ¬(same = false ∧ Carriable old new me used requested)) :
    ∃ fault, old.carryOver new same me used requested = .error fault := by
  cases hrun : old.carryOver new same me used requested with
  | error fault => exact ⟨fault, rfl⟩
  | ok b' => exact (h (carriable_of_ok hrun)).elim

/-- A faithful buffer receives bytes at its write position. -/
theorem Faithful.receive (h : b.Faithful) (bytes : List UInt8) :
    b.receive bytes = { b with payload := b.payload.store b.pos.toNat bytes } := by
  have hdrop : (-(b.pos.toNat : Int)).toNat = 0 := by omega
  rw [Buffer.receive, h.reportedPos, Int.toNat_natCast, hdrop, List.drop_zero]

/-- To receive bytes and to commit them is to write them. -/
theorem Faithful.commit_receive (h : b.Faithful) (howner : b.owner = some me)
    (hfits : bytes.length ≤ b.freeSize.toNat) :
    (b.receive bytes).commit me (UInt64.ofNat bytes.length) = b.write me bytes := by
  have hmine : b.ownedBy me = true := beq_iff_eq.2 howner
  have hstage : b.stage me bytes = .ok (b.receive bytes) := by
    rw [stage, if_pos hmine, if_pos hfits, h.receive]
  rw [write, hstage]
  rfl

/-- The owner's write succeeds if there is room. -/
theorem write_isOk (howner : b.owner = some me) (hfits : bytes.length ≤ b.freeSize.toNat) :
    ∃ b', b.write me bytes = .ok b' := by
  have hmine : b.ownedBy me = true := beq_iff_eq.2 howner
  have hstage : b.stage me bytes =
      .ok { b with payload := b.payload.store b.pos.toNat bytes } := by
    rw [stage, if_pos hmine, if_pos hfits]
  have hroom : UInt64.ofNat bytes.length ≤
      freeSize { b with payload := b.payload.store b.pos.toNat bytes } := by
    rw [UInt64.le_iff_toNat_le, toNat_ofNat_length hfits, freeSize, capacity,
      Payload.capacity_store]
    exact hfits
  rw [write, hstage]
  exact ⟨_, (if_pos hmine).trans (if_pos hroom)⟩

/-- Received and committed, the bytes stand behind what was there to be read. -/
theorem Faithful.unflushed_receive (h : b.Faithful) (howner : b.owner = some me)
    (hfits : bytes.length ≤ b.freeSize.toNat) :
    ∃ b', (b.receive bytes).commit me (UInt64.ofNat bytes.length) = .ok b' ∧
      b'.unflushed = b.unflushed ++ bytes := by
  obtain ⟨b', hwrite⟩ := write_isOk howner hfits
  exact ⟨b', (h.commit_receive howner hfits).trans hwrite, h.unflushed_write hwrite⟩

/-- Whether the act changes bytes or moves the write position. -/
def Act.rewrites (b : Buffer) : Act → Bool
  | .stage me bytes => (b.stage me bytes).isOk
  | .commit me count => (b.commit me count).isOk
  | .write me bytes => (b.write me bytes).isOk
  | .reset me => b.ownedBy me
  | .carryOver source me used requested => (source.carryOver b false me used requested).isOk
  | _ => false

/-- What is refused leaves the buffer as it is. -/
theorem toOption_getD_of_refused {ε : Type} {outcome : Except ε Buffer}
    (h : outcome.isOk = false) : outcome.toOption.getD b = b := by
  cases outcome with
  | error e => rfl
  | ok b' => exact nomatch h

/-- Bytes are only changed, and the write position is only moved, by the acts that say so. -/
theorem Act.untouched {a : Act} (h : a.rewrites b = false) :
    (a.apply b).payload = b.payload ∧ (a.apply b).pos = b.pos := by
  cases a with
  | stage | commit | write | carryOver =>
      rw [apply, toOption_getD_of_refused h]
      exact ⟨rfl, rfl⟩
  | reset me =>
      have hother : ¬b.ownedBy me = true := Bool.eq_false_iff.1 h
      rw [apply, if_neg hother]
      exact ⟨rfl, rfl⟩
  | acquire t =>
      rw [apply]
      split_ifs <;> exact ⟨rfl, rfl⟩
  | tryAcquire t =>
      rw [apply, Buffer.tryAcquire]
      split_ifs <;> exact ⟨rfl, rfl⟩
  | release | flush | markTransient | markLease | setRetired | displace => exact ⟨rfl, rfl⟩

/-- What is staged can be read behind the write position. -/
theorem InOrder.slice_of_stage (h : b.InOrder) (hstage : b.stage me bytes = .ok b') :
    b'.pos = b.pos ∧ b.pos.toNat + bytes.length ≤ b'.capacity.toNat ∧
      b'.payload.slice b.pos.toNat bytes.length = bytes := by
  obtain ⟨hfits, rfl⟩ := stage_eq_ok hstage
  have hfree := h.toNat_freeSize
  have hpos := h.toNat_pos_le
  have hinside : b.pos.toNat + bytes.length ≤ b.payload.capacity.toNat := by
    change b.pos.toNat ≤ b.payload.capacity.toNat at hpos
    change b.freeSize.toNat = b.payload.capacity.toNat - b.pos.toNat at hfree
    omega
  refine ⟨rfl, ?_, Payload.slice_store hinside⟩
  rw [capacity, Payload.capacity_store]
  exact hinside

end Buffer

end BufferPool
