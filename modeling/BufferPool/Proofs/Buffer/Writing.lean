import BufferPool.Proofs.Buffer.Migration

/-!
# Writing is all or nothing

To write bytes is to stage them and to commit what was staged. Each of the two looks at the owner
and at the free space for itself, but after the first has succeeded the second cannot fail. So a
write is either refused before a byte is touched, or it places all bytes and moves the write position
behind them. It makes no difference in how many parts the bytes are written.

The room behind the write position is a difference of natural numbers here.
-/

namespace BufferPool

namespace Payload

variable {p : Payload} {offset : Nat} {bytes first second : List UInt8}

@[simp] theorem store_nil (p : Payload) (offset : Nat) : p.store offset [] = p := by
  rw [store, clip, List.take_nil]

/-- Nothing is left out of a store that ends inside the payload. -/
theorem store_of_inside (h : offset + bytes.length ≤ p.capacity.toNat) (hne : bytes ≠ []) :
    p.store offset bytes =
      { p with
        written := (p.written.rightpad offset p.filler).take offset ++ bytes ++
          p.written.drop (offset + bytes.length) } := by
  have hclip : p.clip offset bytes = bytes := List.take_of_length_le (by omega)
  obtain ⟨byte, rest, rfl⟩ := List.exists_cons_of_ne_nil hne
  rw [store, hclip]

/-- Bytes can be stored in two parts, the second behind the first. -/
theorem store_append (h : offset + (first ++ second).length ≤ p.capacity.toNat) :
    (p.store offset first).store (offset + first.length) second =
      p.store offset (first ++ second) := by
  rw [List.length_append] at h
  by_cases hfirst : first = []
  · rw [hfirst, store_nil, List.nil_append, List.length_nil, Nat.add_zero]
  by_cases hsecond : second = []
  · rw [hsecond, store_nil, List.append_nil]
  have hwhole : offset + (first ++ second).length ≤ p.capacity.toNat := by
    rw [List.length_append]
    exact h
  rw [store_of_inside (p := p.store offset first) (by rw [capacity_store]; omega) hsecond,
    store_of_inside (p := p) (by omega) hfirst,
    store_of_inside hwhole (List.append_ne_nil_of_left_ne_nil hfirst second)]
  -- what stands before the second part are the bytes before the first one, and the first one
  have hbefore : ((p.written.rightpad offset p.filler).take offset ++ first).length =
      offset + first.length := by
    simp only [List.rightpad, List.length_append, List.length_take, List.length_replicate]
    omega
  have hpad : ∀ tail : List UInt8,
      (((p.written.rightpad offset p.filler).take offset ++ first ++ tail).rightpad
        (offset + first.length) p.filler).take (offset + first.length) =
      (p.written.rightpad offset p.filler).take offset ++ first := by
    intro tail
    rw [List.rightpad, List.append_assoc _ tail, ← hbefore, List.take_left]
  have hdrop : ∀ tail : List UInt8,
      ((p.written.rightpad offset p.filler).take offset ++ first ++ tail).drop
        (offset + first.length + second.length) = tail.drop second.length := by
    intro tail
    rw [← hbefore, List.drop_length_add_append]
  rw [hpad, hdrop, List.drop_drop, List.length_append, List.append_assoc _ first second,
    Nat.add_assoc]

end Payload

namespace Buffer

variable {b b' staged : Buffer} {me : Thread} {bytes first second : List UInt8}

/-- How many bytes find room behind the write position. -/
def room (b : Buffer) : Nat := b.capacity.toNat - b.pos.toNat

/-- The bytes are placed behind the write position, which moves behind them. -/
def extend (b : Buffer) (bytes : List UInt8) : Buffer :=
  { b with
    payload := b.payload.store b.pos.toNat bytes
    pos := b.pos + UInt64.ofNat bytes.length }

/-- `b'` is `b` with `bytes` behind what was committed. -/
structure Written (b : Buffer) (bytes : List UInt8) (b' : Buffer) : Prop where
  /-- The other cursor, the owner, the marks and the instruments are the same. -/
  rest : b' = { b with payload := b'.payload, pos := b'.pos }
  capacity : b'.capacity = b.capacity
  pos : b'.pos.toNat = b.pos.toNat + bytes.length
  slice : b'.payload.slice b.pos.toNat bytes.length = bytes
  outside : ∀ i, i < b.pos.toNat ∨ b.pos.toNat + bytes.length ≤ i →
    b'.payload.byteAt i = b.payload.byteAt i
  inOrder : b'.InOrder

/-- Writing one string of bytes on one thread, with all its outcomes. -/
structure WritesWhole (b : Buffer) (me : Thread) (bytes : List UInt8) : Prop where
  notAcquired_iff : b.write me bytes = .error .notAcquired ↔ b.owner ≠ some me
  insufficientSpace_iff : ∀ requested available,
    b.write me bytes = .error (.insufficientSpace requested available) ↔
      b.owner = some me ∧ b.room < bytes.length ∧ requested = bytes.length ∧
        available.toNat = b.room
  ok_iff : (∃ b', b.write me bytes = .ok b') ↔ b.owner = some me ∧ bytes.length ≤ b.room
  written : ∀ b', b.write me bytes = .ok b' → Written b bytes b'
  /-- What was staged can be committed, and then the bytes are written. -/
  commits : ∀ staged, b.stage me bytes = .ok staged →
    ∃ b', staged.commit me (UInt64.ofNat bytes.length) = .ok b' ∧ b.write me bytes = .ok b'
  in_parts : ∀ first second, bytes = first ++ second → ∀ b', b.write me bytes = .ok b' ↔
    ∃ mid, b.write me first = .ok mid ∧ mid.write me second = .ok b'

theorem InOrder.toNat_freeSize_eq_room (h : b.InOrder) : b.freeSize.toNat = b.room :=
  h.toNat_freeSize

/-- Who is not the owner cannot write. -/
theorem write_of_not_owner (howner : b.owner ≠ some me) :
    b.write me bytes = .error .notAcquired := by
  have hother : ¬b.ownedBy me = true := fun h => howner (beq_iff_eq.1 h)
  rw [write, stage, if_neg hother]
  rfl

/-- The owner cannot write more than there is room for. -/
theorem write_of_no_room (howner : b.owner = some me) (hroom : ¬bytes.length ≤ b.freeSize.toNat) :
    b.write me bytes = .error (.insufficientSpace bytes.length b.freeSize) := by
  have hmine : b.ownedBy me = true := beq_iff_eq.2 howner
  rw [write, stage, if_pos hmine, if_neg hroom]
  rfl

/-- The owner's write succeeds if there is room, since the commit finds as much as the stage. -/
theorem write_of_room (howner : b.owner = some me) (hroom : bytes.length ≤ b.freeSize.toNat) :
    b.write me bytes = .ok (b.extend bytes) := by
  obtain ⟨b', hwrite⟩ := write_isOk howner hroom
  obtain ⟨-, rfl⟩ := write_eq_ok hwrite
  exact hwrite

theorem write_eq_ok_iff :
    b.write me bytes = .ok b' ↔
      b.owner = some me ∧ bytes.length ≤ b.freeSize.toNat ∧ b' = b.extend bytes := by
  constructor
  · intro h
    by_cases howner : b.owner = some me
    · exact ⟨howner, write_eq_ok h⟩
    · rw [write_of_not_owner howner] at h
      exact nomatch h
  · rintro ⟨howner, hroom, rfl⟩
    exact write_of_room howner hroom

/-- What was staged can be committed. -/
theorem commit_of_staged (h : b.stage me bytes = .ok staged) :
    ∃ b', staged.commit me (UInt64.ofNat bytes.length) = .ok b' ∧ b.write me bytes = .ok b' := by
  have hwrite : b.write me bytes = staged.commit me (UInt64.ofNat bytes.length) := by
    rw [write, h]
    rfl
  by_cases howner : b.owner = some me
  · obtain ⟨hroom, -⟩ := stage_eq_ok h
    have hok := write_of_room howner hroom
    exact ⟨b.extend bytes, hwrite.symm.trans hok, hok⟩
  · have hmine : b.ownedBy me = false := beq_eq_false_iff_ne.2 howner
    simp [stage, hmine] at h

/-- The write position moves by the number of the bytes, and stays inside the payload. -/
theorem InOrder.toNat_pos_extend (h : b.InOrder) (hroom : bytes.length ≤ b.freeSize.toNat) :
    (b.extend bytes).pos.toNat = b.pos.toNat + bytes.length ∧
      b.pos.toNat + bytes.length ≤ b.capacity.toNat := by
  have hlength := toNat_ofNat_length hroom
  have hcount : UInt64.ofNat bytes.length ≤ b.freeSize := by
    rw [UInt64.le_iff_toNat_le, hlength]
    exact hroom
  obtain ⟨hsum, hend⟩ := h.toNat_pos_add hcount
  rw [hlength] at hsum hend
  exact ⟨hsum, hend⟩

theorem capacity_extend (b : Buffer) (bytes : List UInt8) :
    (b.extend bytes).capacity = b.capacity :=
  Payload.capacity_store b.payload b.pos.toNat bytes

theorem InOrder.extend (h : b.InOrder) (hroom : bytes.length ≤ b.freeSize.toNat) :
    (b.extend bytes).InOrder := by
  obtain ⟨hpos, hend⟩ := h.toNat_pos_extend hroom
  refine ⟨?_, ?_⟩ <;> rw [UInt64.le_iff_toNat_le, hpos]
  · exact Nat.le_trans h.toNat_top_le (Nat.le_add_right _ _)
  · rw [capacity_extend]
    exact hend

/-- What is written stands at the old write position, and the new one is behind it. -/
theorem InOrder.written (h : b.InOrder) (hroom : bytes.length ≤ b.freeSize.toNat) :
    Written b bytes (b.extend bytes) := by
  obtain ⟨hpos, hend⟩ := h.toNat_pos_extend hroom
  exact ⟨rfl, capacity_extend b bytes, hpos, Payload.slice_store hend,
    fun i hi => Payload.byteAt_store_of_outside hi, h.extend hroom⟩

/-- The second part finds the room that the first one has left. -/
theorem InOrder.freeSize_extend (h : b.InOrder) (hroom : first.length ≤ b.freeSize.toNat) :
    (b.extend first).freeSize.toNat = b.freeSize.toNat - first.length := by
  obtain ⟨hpos, -⟩ := h.toNat_pos_extend hroom
  rw [(h.extend hroom).toNat_freeSize, capacity_extend, hpos, h.toNat_freeSize, Nat.sub_sub]

theorem InOrder.extend_append (h : b.InOrder)
    (hroom : (first ++ second).length ≤ b.freeSize.toNat) :
    (b.extend first).extend second = b.extend (first ++ second) := by
  have hlength : (first ++ second).length = first.length + second.length := List.length_append
  have hfirst : first.length ≤ b.freeSize.toNat := by omega
  obtain ⟨hpos, -⟩ := h.toNat_pos_extend hfirst
  obtain ⟨-, hend⟩ := h.toNat_pos_extend hroom
  have hpayload : ((b.extend first).payload).store (b.extend first).pos.toNat second =
      b.payload.store b.pos.toNat (first ++ second) := by
    rw [hpos]
    exact Payload.store_append hend
  have hcount : (b.extend first).pos + UInt64.ofNat second.length =
      b.pos + UInt64.ofNat (first ++ second).length := by
    rw [hlength, UInt64.ofNat_add, ← UInt64.add_assoc]
    rfl
  rw [Buffer.extend, hpayload, hcount]
  rfl

/-- One write of all bytes succeeds if and only if the writes of both parts do, with the same
outcome. -/
theorem InOrder.write_append_iff (h : b.InOrder) :
    b.write me (first ++ second) = .ok b' ↔
      ∃ mid, b.write me first = .ok mid ∧ mid.write me second = .ok b' := by
  have hlength : (first ++ second).length = first.length + second.length := List.length_append
  simp only [write_eq_ok_iff]
  constructor
  · rintro ⟨howner, hroom, rfl⟩
    have hfirst : first.length ≤ b.freeSize.toNat := by omega
    refine ⟨b.extend first, ⟨howner, hfirst, rfl⟩, howner, ?_, (h.extend_append hroom).symm⟩
    rw [h.freeSize_extend hfirst]
    omega
  · rintro ⟨mid, ⟨howner, hfirst, rfl⟩, -, hsecond, rfl⟩
    rw [h.freeSize_extend hfirst] at hsecond
    have hroom : (first ++ second).length ≤ b.freeSize.toNat := by omega
    exact ⟨howner, hroom, h.extend_append hroom⟩

/-- A write to a buffer whose cursors are in order is all or nothing. -/
theorem InOrder.writesWhole (h : b.InOrder) (me : Thread) (bytes : List UInt8) :
    b.WritesWhole me bytes where
  notAcquired_iff := by
    constructor
    · intro hrefused howner
      by_cases hroom : bytes.length ≤ b.freeSize.toNat
      · exact nomatch (write_of_room howner hroom).symm.trans hrefused
      · exact nomatch (write_of_no_room howner hroom).symm.trans hrefused
    · exact write_of_not_owner
  insufficientSpace_iff := by
    intro requested available
    rw [← h.toNat_freeSize_eq_room]
    constructor
    · intro hrefused
      by_cases howner : b.owner = some me
      · by_cases hroom : bytes.length ≤ b.freeSize.toNat
        · exact nomatch (write_of_room howner hroom).symm.trans hrefused
        · have hsame := (write_of_no_room howner hroom).symm.trans hrefused
          obtain ⟨rfl, rfl⟩ := WriteError.insufficientSpace.inj (Except.error.inj hsame)
          exact ⟨howner, Nat.lt_of_not_le hroom, rfl, rfl⟩
      · exact nomatch (write_of_not_owner howner).symm.trans hrefused
    · rintro ⟨howner, hroom, rfl, havailable⟩
      rw [UInt64.toNat_inj.1 havailable]
      exact write_of_no_room howner (Nat.not_le_of_lt hroom)
  ok_iff := by
    rw [← h.toNat_freeSize_eq_room]
    constructor
    · rintro ⟨b', hwrite⟩
      obtain ⟨howner, hroom, -⟩ := write_eq_ok_iff.1 hwrite
      exact ⟨howner, hroom⟩
    · rintro ⟨howner, hroom⟩
      exact ⟨_, write_of_room howner hroom⟩
  written := by
    intro b' hwrite
    obtain ⟨-, hroom, rfl⟩ := write_eq_ok_iff.1 hwrite
    exact h.written hroom
  commits := fun staged hstage => commit_of_staged hstage
  in_parts := by
    rintro first second rfl b'
    exact h.write_append_iff

end Buffer

end BufferPool
