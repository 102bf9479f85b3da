import Mathlib.Tactic.SplitIfs
import BufferPool.Fault

/-!
# The cursors of a buffer

Everything that can be done to one buffer is an act. A tally is a buffer together with two counts: how
many bytes were committed, and how many were reported as flushed, since the content was last forgotten.
Whatever acts follow each other, the cursors stay in order and the two counts are what the cursors say.
So no difference of cursors that is taken as a word leaves the word.

What is true of single cursors is stated in natural numbers, where nothing wraps.
-/

namespace BufferPool

/-- A store reaches just as far as its bytes. -/
theorem Payload.byteAt_store_of_outside {p : Payload} {offset i : Nat} {bytes : List UInt8}
    (h : i < offset ∨ offset + bytes.length ≤ i) : (p.store offset bytes).byteAt i = p.byteAt i := by
  rw [byteAt_store]
  split_ifs with hin
  · rw [List.getD_eq_getElem?_getD, List.getElem?_eq_none (by omega), Option.getD_none]
  · rfl

namespace Buffer

/-- First the flushed bytes, then those that are committed only, and all of them inside the
payload. -/
structure InOrder (b : Buffer) : Prop where
  top_le : b.top ≤ b.pos
  pos_le : b.pos ≤ b.capacity

/-- The write position is behind the end of the payload, where the profile looks for that. -/
def Astray (b : Buffer) (profile : Profile) : Prop := profile = .checked ∧ b.locates b.pos = false

instance (b : Buffer) (profile : Profile) : Decidable (b.Astray profile) :=
  inferInstanceAs (Decidable (_ ∧ _))

/-- Everything that can be done to a single buffer. A buffer does not know who holds handles to it
and in which lane it is. -/
inductive Act where
  | acquire (t : Thread)
  | tryAcquire (t : Thread)
  | release
  | stage (me : Thread) (bytes : List UInt8)
  | commit (me : Thread) (count : UInt64)
  | write (me : Thread) (bytes : List UInt8)
  | flush
  | reset (me : Thread)
  | markTransient
  | markLease
  | setRetired (retired : Bool)
  | displace (distance : Int)
  /-- The buffer is the target. Nothing happens to the source. -/
  | carryOver (source : Buffer) (me : Thread) (used requested : UInt64)

namespace Act

/-- What becomes of the buffer. An act that is refused leaves it as it is. -/
def apply (b : Buffer) : Act → Buffer
  | acquire t => if b.owner.isNone then b.claim t else b
  | tryAcquire t => (b.tryAcquire t).2
  | release => b.release
  | stage me bytes => (b.stage me bytes).toOption.getD b
  | commit me count => (b.commit me count).toOption.getD b
  | write me bytes => (b.write me bytes).toOption.getD b
  | flush => b.flush.2
  | reset me => if b.ownedBy me then b.reset else b
  | markTransient => { b with transient := true }
  | markLease => { b with lease := true }
  | setRetired retired => { b with retired := retired }
  | displace distance => b.displace distance
  | carryOver source me used requested =>
    (source.carryOver b false me used requested).toOption.getD b

/-- How many bytes the act commits. -/
def commits (b : Buffer) : Act → Nat
  | commit me count => if (b.commit me count).isOk then count.toNat else 0
  | write me bytes => if (b.write me bytes).isOk then bytes.length else 0
  | _ => 0

/-- How many bytes the act reports as flushed. -/
def flushes (b : Buffer) : Act → Nat
  | flush => b.flush.1.toNat
  | _ => 0

/-- Whether the act forgets the content. -/
def forgets (b : Buffer) : Act → Bool
  | reset me => b.ownedBy me
  | _ => false

end Act

/-- One act after the other. -/
def perform (b : Buffer) (acts : List Act) : Buffer := acts.foldl Act.apply b

/-- A buffer, and what was committed and flushed since its content was last forgotten. -/
structure Tally where
  buffer : Buffer
  committed : Nat
  flushed : Nat

namespace Tally

def start (format : Format) (capacity : UInt64) : Tally := ⟨.fresh format capacity, 0, 0⟩

def act (c : Tally) (a : Act) : Tally :=
  if a.forgets c.buffer then ⟨a.apply c.buffer, 0, 0⟩
  else ⟨a.apply c.buffer, c.committed + a.commits c.buffer, c.flushed + a.flushes c.buffer⟩

def perform (c : Tally) (acts : List Act) : Tally := acts.foldl act c

theorem buffer_perform (c : Tally) (acts : List Act) :
    (c.perform acts).buffer = c.buffer.perform acts := by
  induction acts generalizing c with
  | nil => rfl
  | cons a rest ih =>
      change ((c.act a).perform rest).buffer = (a.apply c.buffer).perform rest
      rw [ih, act]
      split_ifs <;> rfl

/-- The counts agree with the cursors. -/
structure Balanced (c : Tally) : Prop where
  inOrder : c.buffer.InOrder
  committed : c.committed = c.buffer.pos.toNat
  flushed : c.flushed = c.buffer.top.toNat

end Tally

variable {b : Buffer}

theorem InOrder.toNat_freeSize (h : b.InOrder) :
    b.freeSize.toNat = b.capacity.toNat - b.pos.toNat :=
  UInt64.toNat_sub_of_le _ _ h.pos_le

theorem InOrder.toNat_sub_top (h : b.InOrder) :
    (b.pos - b.top).toNat = b.pos.toNat - b.top.toNat :=
  UInt64.toNat_sub_of_le _ _ h.top_le

/-- Both cursors stand for places in the payload. -/
theorem InOrder.locates (h : b.InOrder) : b.locates b.pos = true ∧ b.locates b.top = true :=
  ⟨decide_eq_true h.pos_le, decide_eq_true (UInt64.le_trans h.top_le h.pos_le)⟩

theorem InOrder.not_astray (h : b.InOrder) (profile : Profile) : ¬b.Astray profile :=
  fun hastray => Bool.noConfusion (h.locates.1.symm.trans hastray.2)

theorem InOrder.unflushedSize_eq (h : b.InOrder) : b.unflushedSize = b.pos - b.top := if_pos h.top_le

theorem InOrder.toNat_top_le (h : b.InOrder) : b.top.toNat ≤ b.pos.toNat :=
  UInt64.le_iff_toNat_le.1 h.top_le

theorem InOrder.toNat_pos_le (h : b.InOrder) : b.pos.toNat ≤ b.capacity.toNat :=
  UInt64.le_iff_toNat_le.1 h.pos_le

/-- What fits behind the write position can be added to it. -/
theorem InOrder.toNat_pos_add (h : b.InOrder) {count : UInt64} (hc : count ≤ b.freeSize) :
    (b.pos + count).toNat = b.pos.toNat + count.toNat ∧
      b.pos.toNat + count.toNat ≤ b.capacity.toNat := by
  have hfree := h.toNat_freeSize
  have hpos := h.toNat_pos_le
  have hcount := UInt64.le_iff_toNat_le.1 hc
  have hcapacity := b.capacity.toNat_lt
  have hsum : b.pos.toNat + count.toNat ≤ b.capacity.toNat := by omega
  refine ⟨?_, hsum⟩
  rw [UInt64.toNat_add]
  exact Nat.mod_eq_of_lt (Nat.lt_of_le_of_lt hsum hcapacity)

section Outcome

variable {me : Thread} {b' : Buffer}

theorem stage_eq_ok {bytes : List UInt8} (h : b.stage me bytes = .ok b') :
    bytes.length ≤ b.freeSize.toNat ∧
      b' = { b with payload := b.payload.store b.pos.toNat bytes } := by
  unfold stage at h
  split_ifs at h with hme hfits
  exact ⟨hfits, (Except.ok.inj h).symm⟩

theorem commit_eq_ok {count : UInt64} (h : b.commit me count = .ok b') :
    count ≤ b.freeSize ∧ b' = { b with pos := b.pos + count } := by
  unfold commit at h
  split_ifs at h with hme hfits
  exact ⟨hfits, (Except.ok.inj h).symm⟩

/-- Writing is staging and then committing what was staged. -/
theorem write_eq_ok {bytes : List UInt8} (h : b.write me bytes = .ok b') :
    bytes.length ≤ b.freeSize.toNat ∧
      b' = { b with
        payload := b.payload.store b.pos.toNat bytes
        pos := b.pos + UInt64.ofNat bytes.length } := by
  unfold write at h
  cases hs : b.stage me bytes with
  | error e =>
      rw [hs] at h
      exact nomatch h
  | ok staged =>
      obtain ⟨hfits, rfl⟩ := stage_eq_ok hs
      rw [hs] at h
      exact ⟨hfits, (commit_eq_ok h).2⟩

theorem carryOver_eq_ok {source : Buffer} {used requested : UInt64}
    (h : source.carryOver b false me used requested = .ok b') :
    ∃ bytes, b' = b.receive bytes := by
  unfold carryOver at h
  rw [if_neg Bool.false_ne_true] at h
  dsimp only at h
  split_ifs at h
  exact ⟨_, (Except.ok.inj h).symm⟩

theorem toNat_ofNat_length {bytes : List UInt8} (h : bytes.length ≤ b.freeSize.toNat) :
    (UInt64.ofNat bytes.length).toNat = bytes.length :=
  UInt64.toNat_ofNat_of_lt' (Nat.lt_of_le_of_lt h b.freeSize.toNat_lt)

end Outcome

/-- What is written is read behind what was there to be read. -/
theorem InOrder.unflushed_write (h : b.InOrder) {me : Thread} {bytes : List UInt8} {b' : Buffer}
    (hw : b.write me bytes = .ok b') : b'.unflushed = b.unflushed ++ bytes := by
  obtain ⟨hfits, rfl⟩ := write_eq_ok hw
  have hlength := toNat_ofNat_length hfits
  have hcount : UInt64.ofNat bytes.length ≤ b.freeSize := by
    rw [UInt64.le_iff_toNat_le, hlength]
    exact hfits
  obtain ⟨hsum, hend⟩ := h.toNat_pos_add hcount
  have htop := h.toNat_top_le
  have hread := h.toNat_sub_top
  have hgrown : (b.pos + UInt64.ofNat bytes.length - b.top).toNat =
      b.pos.toNat + bytes.length - b.top.toNat := by
    rw [UInt64.toNat_sub_of_le, hsum, hlength]
    rw [UInt64.le_iff_toNat_le, hsum]
    omega
  rw [hlength] at hend
  change _ ≤ b.payload.capacity.toNat at hend
  unfold unflushed
  dsimp only
  apply List.ext_getElem?
  intro i
  rw [Payload.getElem?_slice, Payload.byteAt_store, List.getElem?_append, Payload.length_slice,
    Payload.getElem?_slice, hgrown, hread]
  by_cases hold : i < b.pos.toNat - b.top.toNat
  · -- a byte that was there before the write
    rw [if_pos hold, if_pos hold, if_pos (by omega), if_neg (by omega)]
  · have hindex : b.top.toNat + i - b.pos.toNat = i - (b.pos.toNat - b.top.toNat) := by omega
    rw [if_neg hold, hindex]
    by_cases hnew : i < b.pos.toNat + bytes.length - b.top.toNat
    · rw [if_pos hnew, if_pos (by omega), List.getD_eq_getElem?_getD,
        List.getElem?_eq_getElem (by omega), Option.getD_some]
    · rw [if_neg hnew, List.getElem?_eq_none (by omega)]

/-- An act that moves no cursor and leaves the size of the payload. -/
def Steady (a : Act) (b : Buffer) : Prop :=
  (a.apply b).top = b.top ∧ (a.apply b).pos = b.pos ∧ (a.apply b).capacity = b.capacity

theorem steady_stage (b : Buffer) (me : Thread) (bytes : List UInt8) :
    Steady (.stage me bytes) b := by
  simp only [Steady, Act.apply]
  cases hs : b.stage me bytes with
  | error e => exact ⟨rfl, rfl, rfl⟩
  | ok staged =>
      obtain ⟨-, rfl⟩ := stage_eq_ok hs
      exact ⟨rfl, rfl, Payload.capacity_store _ _ _⟩

theorem steady_carryOver (b source : Buffer) (me : Thread) (used requested : UInt64) :
    Steady (.carryOver source me used requested) b := by
  simp only [Steady, Act.apply]
  cases hs : source.carryOver b false me used requested with
  | error e => exact ⟨rfl, rfl, rfl⟩
  | ok received =>
      obtain ⟨bytes, rfl⟩ := carryOver_eq_ok hs
      exact ⟨rfl, rfl, Payload.capacity_store _ _ _⟩

theorem steady_acquire (b : Buffer) (t : Thread) : Steady (.acquire t) b := by
  simp only [Steady, Act.apply]
  split_ifs <;> exact ⟨rfl, rfl, rfl⟩

theorem steady_tryAcquire (b : Buffer) (t : Thread) : Steady (.tryAcquire t) b := by
  simp only [Steady, Act.apply, Buffer.tryAcquire]
  split_ifs <;> exact ⟨rfl, rfl, rfl⟩

/-- No act changes what a buffer weighs. -/
theorem Act.weight_apply (b : Buffer) (a : Act) :
    (a.apply b).header = b.header ∧ (a.apply b).capacity = b.capacity := by
  cases a with
  | acquire t => exact ⟨by simp only [apply]; split_ifs <;> rfl, (steady_acquire b t).2.2⟩
  | tryAcquire t =>
      refine ⟨?_, (steady_tryAcquire b t).2.2⟩
      simp only [apply, Buffer.tryAcquire]
      split_ifs <;> rfl
  | stage me bytes =>
      refine ⟨?_, (steady_stage b me bytes).2.2⟩
      simp only [apply]
      cases hs : b.stage me bytes with
      | error e => rfl
      | ok staged =>
          obtain ⟨-, rfl⟩ := stage_eq_ok hs
          rfl
  | commit me count =>
      simp only [apply]
      cases hc : b.commit me count with
      | error e => exact ⟨rfl, rfl⟩
      | ok committed =>
          obtain ⟨-, rfl⟩ := commit_eq_ok hc
          exact ⟨rfl, rfl⟩
  | write me bytes =>
      simp only [apply]
      cases hw : b.write me bytes with
      | error e => exact ⟨rfl, rfl⟩
      | ok written =>
          obtain ⟨-, rfl⟩ := write_eq_ok hw
          exact ⟨rfl, Payload.capacity_store _ _ _⟩
  | reset me =>
      simp only [apply]
      split_ifs <;> exact ⟨rfl, rfl⟩
  | carryOver source me used requested =>
      refine ⟨?_, (steady_carryOver b source me used requested).2.2⟩
      simp only [apply]
      cases hs : source.carryOver b false me used requested with
      | error e => rfl
      | ok received =>
          obtain ⟨bytes, rfl⟩ := carryOver_eq_ok hs
          rfl
  | release | flush | markTransient | markLease | setRetired | displace => exact ⟨rfl, rfl⟩

theorem weight_perform (b : Buffer) (acts : List Act) :
    (b.perform acts).header = b.header ∧ (b.perform acts).capacity = b.capacity := by
  induction acts generalizing b with
  | nil => exact ⟨rfl, rfl⟩
  | cons a rest ih =>
      obtain ⟨hheader, hcapacity⟩ := a.weight_apply b
      exact ⟨(ih _).1.trans hheader, (ih _).2.trans hcapacity⟩

theorem totalSize_perform (b : Buffer) (acts : List Act) :
    (b.perform acts).totalSize = b.totalSize := by
  obtain ⟨hheader, hcapacity⟩ := weight_perform b acts
  rw [totalSize, hheader, hcapacity, totalSize]

end Buffer

namespace Buffer.Tally

variable {c : Tally}

theorem Balanced.steady (h : c.Balanced) {a : Act} (ha : Steady a c.buffer) :
    Balanced ⟨a.apply c.buffer, c.committed, c.flushed⟩ := by
  obtain ⟨htop, hpos, hcapacity⟩ := ha
  refine ⟨⟨?_, ?_⟩, ?_, ?_⟩
  · rw [htop, hpos]
    exact h.inOrder.top_le
  · rw [hpos, hcapacity]
    exact h.inOrder.pos_le
  · rw [hpos]
    exact h.committed
  · rw [htop]
    exact h.flushed

/-- Committing moves the write position by what is committed. -/
theorem Balanced.advance (h : c.Balanced) {count : UInt64} {payload : Payload}
    (hcapacity : payload.capacity = c.buffer.capacity) (hfits : count ≤ c.buffer.freeSize) :
    Balanced ⟨{ c.buffer with payload := payload, pos := c.buffer.pos + count },
      c.committed + count.toNat, c.flushed⟩ := by
  obtain ⟨hsum, hle⟩ := h.inOrder.toNat_pos_add hfits
  refine ⟨⟨?_, ?_⟩, ?_, h.flushed⟩
  · rw [UInt64.le_iff_toNat_le, hsum]
    exact Nat.le_trans h.inOrder.toNat_top_le (Nat.le_add_right _ _)
  · rw [UInt64.le_iff_toNat_le, hsum]
    change _ ≤ payload.capacity.toNat
    rw [hcapacity]
    exact hle
  · rw [h.committed]
    exact hsum.symm

theorem balanced_reset (b : Buffer) : Balanced ⟨b.reset, 0, 0⟩ :=
  ⟨⟨UInt64.le_refl _, UInt64.le_iff_toNat_le.2 (Nat.zero_le _)⟩, rfl, rfl⟩

theorem Balanced.flush (h : c.Balanced) :
    Balanced ⟨c.buffer.flush.2, c.committed, c.flushed + c.buffer.flush.1.toNat⟩ := by
  refine ⟨⟨UInt64.le_refl _, h.inOrder.pos_le⟩, h.committed, ?_⟩
  have hle := h.inOrder.toNat_top_le
  rw [h.flushed]
  change c.buffer.top.toNat + (c.buffer.pos - c.buffer.top).toNat = c.buffer.pos.toNat
  rw [h.inOrder.toNat_sub_top]
  omega

/-- Whatever is done next, the counts go on agreeing with the cursors. -/
theorem Balanced.act (h : c.Balanced) (a : Act) : (c.act a).Balanced := by
  cases a with
  | acquire t => exact h.steady (steady_acquire c.buffer t)
  | tryAcquire t => exact h.steady (steady_tryAcquire c.buffer t)
  | release => exact h.steady (a := .release) ⟨rfl, rfl, rfl⟩
  | stage me bytes => exact h.steady (steady_stage c.buffer me bytes)
  | commit me count =>
      simp only [Tally.act, Act.forgets, Act.apply, Act.commits, Bool.false_eq_true, if_false]
      cases hc : c.buffer.commit me count with
      | error e => exact h
      | ok b =>
          obtain ⟨hfits, rfl⟩ := commit_eq_ok hc
          exact h.advance rfl hfits
  | write me bytes =>
      simp only [Tally.act, Act.forgets, Act.apply, Act.commits, Bool.false_eq_true, if_false]
      cases hw : c.buffer.write me bytes with
      | error e => exact h
      | ok b =>
          obtain ⟨hfits, rfl⟩ := write_eq_ok hw
          have hlength := toNat_ofNat_length hfits
          have hcount : UInt64.ofNat bytes.length ≤ c.buffer.freeSize := by
            rw [UInt64.le_iff_toNat_le, hlength]
            exact hfits
          have hstep := h.advance
            (Payload.capacity_store c.buffer.payload c.buffer.pos.toNat bytes) hcount
          rw [hlength] at hstep
          exact hstep
  | flush => exact h.flush
  | reset me =>
      simp only [Tally.act, Act.forgets, Act.apply]
      split_ifs
      · exact balanced_reset c.buffer
      · exact h
  | markTransient => exact h.steady (a := .markTransient) ⟨rfl, rfl, rfl⟩
  | markLease => exact h.steady (a := .markLease) ⟨rfl, rfl, rfl⟩
  | setRetired retired => exact h.steady (a := .setRetired retired) ⟨rfl, rfl, rfl⟩
  | displace distance => exact h.steady (a := .displace distance) ⟨rfl, rfl, rfl⟩
  | carryOver source me used requested =>
      exact h.steady (steady_carryOver c.buffer source me used requested)

theorem balanced_start (format : Format) (capacity : UInt64) : (start format capacity).Balanced :=
  ⟨⟨UInt64.le_refl _, UInt64.le_iff_toNat_le.2 (Nat.zero_le _)⟩, rfl, rfl⟩

theorem Balanced.perform (h : c.Balanced) (acts : List Act) : (c.perform acts).Balanced := by
  induction acts generalizing c with
  | nil => exact h
  | cons a rest ih => exact ih (h.act a)

/-- What the cursors say after any acts. Each difference of cursors that is taken as a word is the
difference of the two numbers, and each sum their sum. -/
structure Exact (c : Tally) : Prop where
  inOrder : c.buffer.InOrder
  committed : c.committed = c.buffer.pos.toNat
  flushed : c.flushed + c.buffer.unflushedSize.toNat = c.committed
  free : c.buffer.freeSize.toNat = c.buffer.capacity.toNat - c.committed
  /-- No cursor is ahead of the end, so nothing is lost when one is subtracted from it. -/
  freeSize : c.buffer.pos.toNat + c.buffer.freeSize.toNat = c.buffer.capacity.toNat
  unflushedSize : c.buffer.top.toNat + c.buffer.unflushedSize.toNat = c.buffer.pos.toNat
  flush : c.buffer.top.toNat + c.buffer.flush.1.toNat = c.buffer.pos.toNat
  /-- What is read ends at the write position, inside the payload. -/
  unflushed : c.buffer.top.toNat + c.buffer.unflushed.length = c.buffer.pos.toNat
  commit : ∀ count, count ≤ c.buffer.freeSize →
    (c.buffer.pos + count).toNat = c.buffer.pos.toNat + count.toNat ∧
      c.buffer.pos.toNat + count.toNat ≤ c.buffer.capacity.toNat

/-- What was committed is what was flushed and what is not flushed yet. -/
theorem Balanced.flushed_add (h : c.Balanced) :
    c.flushed + c.buffer.unflushedSize.toNat = c.committed := by
  have hle := h.inOrder.toNat_top_le
  rw [h.inOrder.unflushedSize_eq, h.inOrder.toNat_sub_top, h.flushed, h.committed]
  omega

theorem Balanced.exact (h : c.Balanced) : c.Exact := by
  have htop := h.inOrder.toNat_top_le
  have hpos := h.inOrder.toNat_pos_le
  have hsub := h.inOrder.toNat_sub_top
  have hfree := h.inOrder.toNat_freeSize
  refine ⟨h.inOrder, h.committed, h.flushed_add, ?_, ?_, ?_, ?_, ?_, fun _ => h.inOrder.toNat_pos_add⟩
  · rw [hfree, h.committed]
  · omega
  · rw [h.inOrder.unflushedSize_eq]
    omega
  · change c.buffer.top.toNat + (c.buffer.pos - c.buffer.top).toNat = _
    omega
  · rw [Buffer.unflushed, Payload.length_slice]
    omega

end Buffer.Tally

end BufferPool
