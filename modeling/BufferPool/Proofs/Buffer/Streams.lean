import BufferPool.Proofs.Buffer.Cursors

/-!
# Committed bytes

What has been committed to a plain buffer stays where it is until the content is forgotten, and only
the owner adds to it. So, as long as bytes are added by writing them, what the flushes show one after
the other, and then what is left to be flushed, is what was written.

A metered buffer may be told to report a wrong write position. What is carried over goes there, and may
overwrite what was committed.
-/

namespace BufferPool.Buffer

variable {a : Act} {b b' : Buffer} {me : Thread}

/-- All committed bytes of `b` are still committed in `b'`. -/
structure Extends (b b' : Buffer) : Prop where
  pos_le : b.pos.toNat ≤ b'.pos.toNat
  byteAt : ∀ i < b.pos.toNat, b'.payload.byteAt i = b.payload.byteAt i

namespace Extends

theorem refl (b : Buffer) : Extends b b := ⟨Nat.le_refl _, fun _ _ => rfl⟩

/-- Only marks have changed, or the owner. -/
theorem of_eq (hpayload : b'.payload = b.payload) (hpos : b'.pos = b.pos) : Extends b b' :=
  ⟨Nat.le_of_eq (congrArg _ hpos.symm), fun i _ => congrArg (Payload.byteAt · i) hpayload⟩

/-- Bytes were stored behind those that are committed. -/
theorem of_store {offset : Nat} {bytes : List UInt8} (hoffset : b.pos.toNat ≤ offset)
    (hpayload : b'.payload = b.payload.store offset bytes) (hpos : b.pos.toNat ≤ b'.pos.toNat) :
    Extends b b' := by
  refine ⟨hpos, fun i hi => ?_⟩
  rw [hpayload]
  exact Payload.byteAt_store_of_outside (.inl (Nat.lt_of_lt_of_le hi hoffset))

end Extends

/-- What is carried over to a plain buffer is stored behind its committed bytes. -/
theorem carryOver_eq_ok_of_plain {source : Buffer} {used requested : UInt64}
    (hplain : b.meter = none) (h : source.carryOver b false me used requested = .ok b') :
    ∃ bytes, bytes.length = used.toNat ∧
      b' = { b with payload := b.payload.store b.pos.toNat bytes } := by
  unfold carryOver at h
  rw [if_neg Bool.false_ne_true] at h
  dsimp only at h
  split_ifs at h
  refine ⟨_, Payload.length_slice source.payload source.reportedPos.toNat used.toNat, ?_⟩
  have hreported : b.reportedPos = (b.pos.toNat : Int) := by
    rw [reportedPos, hplain]
    exact Int.add_zero _
  have hdrop : (-(b.pos.toNat : Int)).toNat = 0 := by omega
  rw [← Except.ok.inj h, receive, hreported, Int.toNat_natCast, hdrop, List.drop_zero]

/-- A plain buffer has no instruments, and does not get any. -/
theorem Act.meter_apply (hplain : b.meter = none) : (a.apply b).meter = none := by
  cases a with
  | acquire t =>
      simp only [apply]
      split_ifs <;> exact hplain
  | tryAcquire t =>
      simp only [apply, Buffer.tryAcquire]
      split_ifs <;> simp [claim, countAttempt, hplain]
  | stage me bytes =>
      simp only [apply]
      cases hs : b.stage me bytes with
      | error e => exact hplain
      | ok staged =>
          obtain ⟨-, rfl⟩ := stage_eq_ok hs
          exact hplain
  | commit me count =>
      simp only [apply]
      cases hc : b.commit me count with
      | error e => exact hplain
      | ok committed =>
          obtain ⟨-, rfl⟩ := commit_eq_ok hc
          exact hplain
  | write me bytes =>
      simp only [apply]
      cases hw : b.write me bytes with
      | error e => exact hplain
      | ok written =>
          obtain ⟨-, rfl⟩ := write_eq_ok hw
          exact hplain
  | reset me =>
      simp only [apply]
      split_ifs <;> exact hplain
  | displace distance => simp [apply, Buffer.displace, hplain]
  | carryOver source me used requested =>
      simp only [apply]
      cases hs : source.carryOver b false me used requested with
      | error e => exact hplain
      | ok received =>
          obtain ⟨bytes, rfl⟩ := carryOver_eq_ok hs
          exact hplain
  | release | flush | markTransient | markLease | setRetired => exact hplain

theorem meter_perform (hplain : b.meter = none) (acts : List Act) :
    (b.perform acts).meter = none := by
  induction acts generalizing b with
  | nil => exact hplain
  | cons a rest ih => exact ih (Act.meter_apply hplain)

/-- Only forgetting touches what is committed. -/
theorem InOrder.extends (h : b.InOrder) (hplain : b.meter = none) (hf : a.forgets b = false) :
    Extends b (a.apply b) := by
  cases a with
  | acquire t =>
      simp only [Act.apply]
      split_ifs
      · exact .of_eq rfl rfl
      · exact .refl b
  | tryAcquire t =>
      simp only [Act.apply, Buffer.tryAcquire]
      split_ifs <;> exact .of_eq rfl rfl
  | stage me bytes =>
      simp only [Act.apply]
      cases hs : b.stage me bytes with
      | error e => exact .refl b
      | ok staged =>
          obtain ⟨-, rfl⟩ := stage_eq_ok hs
          exact .of_store (Nat.le_refl _) rfl (Nat.le_refl _)
  | commit me count =>
      simp only [Act.apply]
      cases hc : b.commit me count with
      | error e => exact .refl b
      | ok committed =>
          obtain ⟨hfits, rfl⟩ := commit_eq_ok hc
          exact ⟨Nat.le_trans (Nat.le_add_right _ _) (Nat.le_of_eq (h.toNat_pos_add hfits).1.symm),
            fun _ _ => rfl⟩
  | write me bytes =>
      simp only [Act.apply]
      cases hw : b.write me bytes with
      | error e => exact .refl b
      | ok written =>
          obtain ⟨hfits, rfl⟩ := write_eq_ok hw
          have hcount : UInt64.ofNat bytes.length ≤ b.freeSize := by
            rw [UInt64.le_iff_toNat_le, toNat_ofNat_length hfits]
            exact hfits
          exact .of_store (Nat.le_refl _) rfl
            (Nat.le_trans (Nat.le_add_right _ _) (Nat.le_of_eq (h.toNat_pos_add hcount).1.symm))
  | reset me =>
      have hother : ¬b.ownedBy me = true := by
        rw [show b.ownedBy me = false from hf]
        exact Bool.false_ne_true
      simp only [Act.apply, if_neg hother]
      exact .refl b
  | carryOver source me used requested =>
      simp only [Act.apply]
      cases hs : source.carryOver b false me used requested with
      | error e => exact .refl b
      | ok received =>
          obtain ⟨bytes, -, rfl⟩ := carryOver_eq_ok_of_plain hplain hs
          exact .of_store (Nat.le_refl _) rfl (Nat.le_refl _)
  | release | flush | markTransient | markLease | setRetired | displace => exact .of_eq rfl rfl

/-- Carrying over reaches just as far as what is carried, and moves no cursor and no mark. -/
theorem carryOver_range {source : Buffer} {used requested : UInt64} (hplain : b.meter = none) :
    let b' := (Act.carryOver source me used requested).apply b
    (∀ i, i < b.pos.toNat ∨ b.pos.toNat + used.toNat ≤ i →
      b'.payload.byteAt i = b.payload.byteAt i) ∧ { b' with payload := b.payload } = b := by
  simp only [Act.apply]
  cases hs : source.carryOver b false me used requested with
  | error e => exact ⟨fun _ _ => rfl, rfl⟩
  | ok received =>
      obtain ⟨bytes, hlength, rfl⟩ := carryOver_eq_ok_of_plain hplain hs
      rw [← hlength]
      exact ⟨fun i hi => Payload.byteAt_store_of_outside hi, rfl⟩

/-- The bytes that are shown are those from the flush position to the write position. -/
theorem InOrder.unflushed_eq (h : b.InOrder) :
    b.unflushed.length = b.pos.toNat - b.top.toNat ∧
      ∀ i < b.pos.toNat - b.top.toNat,
        b.unflushed[i]? = some (b.payload.byteAt (b.top.toNat + i)) := by
  have hread := h.toNat_sub_top
  refine ⟨(Payload.length_slice ..).trans hread, fun i hi => ?_⟩
  rw [unflushed, Payload.getElem?_slice, hread, if_pos hi]

/-- What is shown depends on committed bytes only. -/
theorem InOrder.unflushed_congr (h : b.InOrder) (he : Extends b b') (htop : b'.top = b.top)
    (hpos : b'.pos = b.pos) : b'.unflushed = b.unflushed := by
  have htople := h.toNat_top_le
  have hread := h.toNat_sub_top
  rw [unflushed, unflushed, htop, hpos]
  refine List.ext_getElem? fun i => ?_
  rw [Payload.getElem?_slice, Payload.getElem?_slice]
  split_ifs with hi
  · rw [he.byteAt _ (by omega)]
  · rfl

/-- What a flush shows. -/
def Act.shows (b : Buffer) : Act → List UInt8
  | .flush => b.unflushed
  | _ => []

/-- What is written by the act. -/
def Act.writes (b : Buffer) : Act → List UInt8
  | .write me bytes => if (b.write me bytes).isOk then bytes else []
  | _ => []

/-- How many bytes that were staged before are committed by the act. -/
def Act.promotes (b : Buffer) : Act → Nat
  | .commit me count => (Act.commit me count).commits b
  | _ => 0

theorem unflushed_flush (b : Buffer) : b.flush.2.unflushed = [] := by
  refine List.eq_nil_of_length_eq_zero ?_
  rw [unflushed, Payload.length_slice]
  change (b.pos - b.pos).toNat = 0
  rw [UInt64.sub_self]
  rfl

/-- Every act that forgets nothing and commits nothing of what was staged shows and leaves together
what there was and what it writes. -/
theorem InOrder.shows_append (h : b.InOrder) (hplain : b.meter = none)
    (hf : a.forgets b = false) (hp : a.promotes b = 0) :
    a.shows b ++ (a.apply b).unflushed = b.unflushed ++ a.writes b := by
  have hext := h.extends hplain hf
  cases a with
  | flush =>
      change b.unflushed ++ b.flush.2.unflushed = _
      rw [unflushed_flush]
      rfl
  | write me bytes =>
      simp only [Act.apply, Act.writes, Act.shows, List.nil_append]
      cases hw : b.write me bytes with
      | error e => exact (List.append_nil _).symm
      | ok written => exact h.unflushed_write hw
  | commit me count =>
      simp only [Act.shows, Act.writes, List.nil_append, List.append_nil]
      refine h.unflushed_congr hext ?_ ?_ <;> simp only [Act.apply]
      · cases hc : b.commit me count with
        | error e => rfl
        | ok committed =>
            obtain ⟨-, rfl⟩ := commit_eq_ok hc
            rfl
      · simp only [Act.promotes, Act.commits] at hp
        cases hc : b.commit me count with
        | error e => rfl
        | ok committed =>
            obtain ⟨-, rfl⟩ := commit_eq_ok hc
            rw [hc] at hp
            obtain rfl : count = 0 := UInt64.toNat_inj.1 hp
            exact UInt64.add_zero _
  | reset me =>
      simp only [Act.shows, Act.writes, List.nil_append, List.append_nil, Act.apply]
      rw [if_neg (by rw [show b.ownedBy me = false from hf]; exact Bool.false_ne_true)]
  | acquire t =>
      obtain ⟨htop, hpos, -⟩ := steady_acquire b t
      simpa [Act.shows, Act.writes] using h.unflushed_congr hext htop hpos
  | tryAcquire t =>
      obtain ⟨htop, hpos, -⟩ := steady_tryAcquire b t
      simpa [Act.shows, Act.writes] using h.unflushed_congr hext htop hpos
  | stage me bytes =>
      obtain ⟨htop, hpos, -⟩ := steady_stage b me bytes
      simpa [Act.shows, Act.writes] using h.unflushed_congr hext htop hpos
  | carryOver source me used requested =>
      obtain ⟨htop, hpos, -⟩ := steady_carryOver b source me used requested
      simpa [Act.shows, Act.writes] using h.unflushed_congr hext htop hpos
  | release | markTransient | markLease | setRetired | displace =>
      exact (List.append_nil _).symm

end BufferPool.Buffer
