import BufferPool.Proofs.Pool.Deciding

/-!
# How one-shot buffers leave

A one-shot buffer that is given back leaves its lane and its pool for good, if what was committed to it
has been flushed. That is all that happens on record, so nobody is asked whether to keep it. All that is
in the lanes besides stays where it is, and the buffers are as they were.
-/

namespace BufferPool

open Arena (Catalog)
open PoolM

variable {σ : Type} {w w' : World σ} {p : PoolId} {minimum : UInt64} {c : Catalog BufferId}
  {lane : Lane} {h : Handle} {b : BufferId}

namespace World

/-- The buffer of the handle has left a lane, and its pool for good. -/
structure Departs (p : PoolId) (lane : Lane) (h : Handle) (w w' : World σ) : Prop where
  owner : h.pool = p
  listed : w.place? p h.key = some (h.buffer, some lane)
  place : ∀ key, w'.place? p key = if key = h.key then none else w.place? p key
  row : ∀ lane, w'.row p lane = (w.row p lane).filter (·.1 != h.key)
  buffer : ∀ b, w'.buffer b = w.buffer b
  record : w'.record = .deallocated p h.buffer (w.buffer h.buffer).totalSize :: w.record

/-- What comes before makes no difference if it is about neither lanes nor buffers nor the record. -/
theorem Departs.after {w₁ : World σ} (hd : Departs p lane h w₁ w') (harena : w₁.arena? p = w.arena? p)
    (hbuffer : ∀ b, w₁.buffer b = w.buffer b) (hrecord : w₁.record = w.record) :
    Departs p lane h w w' := by
  have hplace : ∀ key, w₁.place? p key = w.place? p key := place?_congr harena
  refine ⟨hd.owner, (hplace h.key).symm.trans hd.listed, fun key => ?_, fun lane => ?_,
    fun b => (hd.buffer b).trans (hbuffer b), ?_⟩
  · rw [hd.place, hplace]
  · rw [hd.row, row_congr harena]
  · rw [hd.record, hbuffer, hrecord]

end World

namespace Pool

open World

/-- A one-shot buffer that is flushed can always be given back, and then it is gone. -/
theorem giveBack_departs (hs : w.Stocks p minimum c) (hh : h.pool = p)
    (hp : c.place h.key = some (h.buffer, some lane)) (hone : (w.buffer h.buffer).transient = true)
    (hflushed : w.profile = .checked → (w.buffer h.buffer).unflushedSize = 0) :
    ∃ w' c', giveBack p lane h w = .ok () w' ∧ Departs p lane h w w' ∧ w'.Stocks p minimum c' ∧
      w'.profile = w.profile ∧ w'.cells.size = w.cells.size := by
  obtain ⟨pool, -, hpool, -⟩ := hs.pool
  have hunasked : w.verdict? p pool h = none := if_pos hone
  obtain ⟨w', c', hr, hdecides, hrest⟩ := release_decides hs hh hpool hp fun hlasting =>
    Bool.noConfusion (hlasting.symm.trans hone)
  rw [hunasked] at hdecides
  refine ⟨w', c', (giveBack_of_flushed hflushed).trans hr, ⟨hh, (hs.place? h.key).trans hp,
    fun key => ?_, fun lane' => ?_, hdecides.buffer, ?_⟩, hrest⟩
  · rw [hdecides.place, if_neg (Option.some_ne_none true).symm]
  · rw [hdecides.row, if_neg nofun]
  · rw [hdecides.record, if_neg (Option.some_ne_none true).symm]
    rfl

end Pool

end BufferPool
