import Mathlib.Algebra.Ring.Nat
import Mathlib.Algebra.BigOperators.Group.List.Lemmas
import BufferPool.Proofs.Arena.Distinct
import BufferPool.Proofs.Pool.Lending

/-!
# The backlog of a pool

The backlog is what was written into the buffers of the full lane and is not flushed yet. It is a sum
over the keys of the lane, of which each bears the unflushed bytes of its buffer. A step that touches
some buffers changes what their keys bear, and nothing else.
-/

namespace BufferPool

open Arena (Catalog)

variable {σ : Type} {w w' : World σ} {p : PoolId} {minimum : UInt64} {c c' : Catalog BufferId}
  {touched : BufferId → Prop} {key : Arena.Key} {b : BufferId}

/-- Buffers that are not touched are as before. -/
structure Frame (touched : BufferId → Prop) (c : Catalog BufferId) (w : World σ)
    (c' : Catalog BufferId) (w' : World σ) : Prop where
  size : w.cells.size ≤ w'.cells.size
  alike : ∀ b, b < w.cells.size → ¬touched b → (w.buffer b).Alike (w'.buffer b)
  spares : Catalog.Spares touched c c'

/-- How many unflushed bytes a key bears. -/
def load (c : Catalog BufferId) (w : World σ) (key : Arena.Key) : Nat :=
  ((c.place key).map fun entry => (w.buffer entry.1).unflushedSize.toNat).getD 0

/-- How many bytes in the full lane are not flushed. -/
def backlog (c : Catalog BufferId) (w : World σ) : Nat := ((c.order .full).map (load c w)).sum

theorem load_of_place {lane : Option Lane} (hp : c.place key = some (b, lane)) (w : World σ) :
    load c w key = (w.buffer b).unflushedSize.toNat := by
  rw [load, hp]
  rfl

namespace Frame

theorem load_eq (hf : Frame touched c w c' w') {lane : Option Lane}
    (hp : c.place key = some (b, lane)) (hlt : b < w.cells.size) (ht : ¬touched b) :
    load c' w' key = load c w key := by
  rw [load_of_place hp, load_of_place ((hf.spares key b lane ht).2 hp),
    (hf.alike b hlt ht).unflushedSize]

end Frame

namespace World.Stocks

/-- The other keys of the full lane bear what they bore. -/
theorem load_others (hs : w.Stocks p minimum c) (hd : c.Distinct) (hf : Frame (· = b) c w c' w')
    (hbound : ∀ key b, c.place key = some (b, some .full) → b < w.cells.size)
    (hp : c.place key = some (b, some .full)) :
    ((c.order .full).erase key).map (load c' w') = ((c.order .full).erase key).map (load c w) := by
  apply List.map_congr_left
  intro key' hk
  obtain ⟨hne, hmem⟩ := (hs.nodup_order .full).mem_erase_iff.1 hk
  obtain ⟨b', hp'⟩ := hs.mem_order.1 hmem
  apply hf.load_eq hp' (hbound key' b' hp')
  intro heq
  subst heq
  exact hne (hd key' key b' _ _ hp' hp)

/-- What happens outside of the full lane does not count. -/
theorem backlog_outside (hs : w.Stocks p minimum c) (hf : Frame touched c w c' w')
    (hbound : ∀ key b, c.place key = some (b, some .full) → b < w.cells.size)
    (horder : c'.order .full = c.order .full)
    (hout : ∀ key b, c.place key = some (b, some .full) → ¬touched b) :
    backlog c' w' = backlog c w := by
  rw [backlog, horder, backlog]
  congr 1
  apply List.map_congr_left
  intro key hk
  obtain ⟨b, hp⟩ := hs.mem_order.1 hk
  exact hf.load_eq hp (hbound key b hp) (hout key b hp)

/-- A blank buffer that enters the full lane does not count. -/
theorem backlog_enter (hs : w.Stocks p minimum c) (hf : Frame (· = b) c w c' w')
    (hbound : ∀ key b, c.place key = some (b, some .full) → b < w.cells.size)
    (horder : c'.order .full = key :: c.order .full) {lane : Option Lane}
    (hp : c'.place key = some (b, lane)) (hblank : (w'.buffer b).Blank)
    (hout : ∀ key, c.place key ≠ some (b, some .full)) :
    backlog c' w' = backlog c w := by
  have hrest : (c.order .full).map (load c' w') = (c.order .full).map (load c w) := by
    apply List.map_congr_left
    intro key' hk
    obtain ⟨b', hp'⟩ := hs.mem_order.1 hk
    apply hf.load_eq hp' (hbound key' b' hp')
    intro heq
    exact hout key' (heq ▸ hp')
  rw [backlog, horder, List.map_cons, List.sum_cons, hrest, load_of_place hp, hblank.unflushedSize,
    backlog]
  exact Nat.zero_add _

/-- A buffer of the full lane has changed. -/
theorem backlog_change (hs : w.Stocks p minimum c) (hd : c.Distinct)
    (hf : Frame (· = b) c w c w')
    (hbound : ∀ key b, c.place key = some (b, some .full) → b < w.cells.size)
    (hp : c.place key = some (b, some .full)) :
    backlog c w' + (w.buffer b).unflushedSize.toNat =
      backlog c w + (w'.buffer b).unflushedSize.toNat := by
  have hmem : key ∈ c.order .full := hs.mem_order.2 ⟨b, hp⟩
  have hnew := List.sum_map_erase (load c w') hmem
  have hold := List.sum_map_erase (load c w) hmem
  rw [hs.load_others hd hf hbound hp, load_of_place hp] at hnew
  rw [load_of_place hp] at hold
  rw [backlog, backlog, ← hnew, ← hold]
  omega

/-- A buffer has left the full lane and takes along what it bore. -/
theorem backlog_leave (hs : w.Stocks p minimum c) (hd : c.Distinct)
    (hf : Frame (· = b) c w c' w')
    (hbound : ∀ key b, c.place key = some (b, some .full) → b < w.cells.size)
    (hp : c.place key = some (b, some .full))
    (horder : c'.order .full = (c.order .full).erase key) :
    (w.buffer b).unflushedSize.toNat + backlog c' w' = backlog c w := by
  rw [backlog, horder, hs.load_others hd hf hbound hp, ← load_of_place hp w]
  exact List.sum_map_erase (load c w) (hs.mem_order.2 ⟨b, hp⟩)

end World.Stocks

end BufferPool
