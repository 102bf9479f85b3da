import BufferPool.Pool.Setup
import BufferPool.Proofs.Arena.Contents
import BufferPool.Proofs.Pool.Rows
import BufferPool.Proofs.Pool.SendingOff

/-!
# Closing a pool

To close a pool is to drain its arena and to send off all that comes out: the full lane from the head,
the free lane from the head, and then what is detached, by slots. The pool is left with an empty arena.
Other pools are not concerned, and what somebody has a handle to loses nothing but its pool.
-/

namespace BufferPool

open PoolM

variable {σ : Type} {w w' : World σ} {p : PoolId} {pool : Pool} {b : BufferId}
  {buffers : List BufferId}

namespace World

theorem tidy_of_inventory {full free loose : List (Arena.Key × BufferId)}
    (hp : w.pool? p = some pool) (hsound : pool.arena.Sound)
    (hi : pool.arena.Inventory full free loose)
    (hnodup : ((full ++ free ++ loose).map (·.2)).Nodup)
    (hhome : ∀ e ∈ full ++ free ++ loose, w.home? e.2 = some p) : w.Tidy p pool := by
  refine ⟨hp, hsound, hi.perm_values.nodup_iff.1 hnodup, fun key b lane hplace => ?_⟩
  rw [place?_of_pool? hp] at hplace
  refine hhome (key, b) ((hi.complete key b).2 ?_)
  rw [Arena.get?_eq_place?, hplace]
  rfl

/-- The pool has been closed, and these were its buffers in the order in which they were sent off. -/
structure Closes (p : PoolId) (pool : Pool) (buffers : List BufferId) (w w' : World σ) : Prop where
  told : w'.events = (buffers.flatMap (w.sendOff p)).reverse ++
    .noted p (.closing buffers.length pool.arena.detached) :: w.events
  cells : ∀ b : BufferId, w'.cells[b]? = w.cells[b]?.map fun c =>
    if b ∈ buffers then { c with refs := c.refs - 1 } else c
  closed : ∃ allocated, w'.pools[p]? =
    some { pool with arena := .empty, allocated := allocated, live := false }
  others : ∀ q, q ≠ p → w'.pools[q]? = w.pools[q]?
  /-- Nothing else has changed. -/
  rest : w' = { w with pools := w'.pools, cells := w'.cells, events := w'.events }

theorem Closes.buffer (h : Closes p pool buffers w w') (b : BufferId) :
    w'.buffer b = w.buffer b := by
  rw [World.buffer, h.cells, World.buffer, Option.map_map]
  congr 2
  funext c
  simp only [Function.comp_apply]
  split_ifs <;> rfl

theorem Closes.refs (h : Closes p pool buffers w w') (b : BufferId) :
    w'.refs b = if b ∈ buffers then w.refs b - 1 else w.refs b := by
  rw [World.refs, h.cells, World.refs, Option.map_map]
  cases w.cells[b]? with
  | none => simp
  | some c => by_cases hb : b ∈ buffers <;> simp [hb]

/-- What goes back are payloads of buffers of the pool to which there was no other reference. -/
theorem Closes.freed (h : Closes p pool buffers w w') {q : PoolId} {tag : Option Nat}
    {capacity : UInt64} (hin : .freed q b tag capacity ∈ w'.events) :
    (b ∈ buffers ∧ w.refs b = 1) ∨ .freed q b tag capacity ∈ w.events := by
  rw [h.told, List.mem_append, List.mem_reverse, List.mem_flatMap, List.mem_cons] at hin
  rcases hin with ⟨b', hb', hevent⟩ | hnote | hold
  · rcases List.mem_append.1 hevent with htold | hfreed
    · simp at htold
    · split_ifs at hfreed with hlast
      · obtain ⟨-, rfl, -⟩ := Event.freed.inj (List.mem_singleton.1 hfreed)
        exact .inl ⟨hb', hlast⟩
      · exact absurd hfreed List.not_mem_nil
  · exact nomatch hnote
  · exact .inr hold

end World

namespace Pool

open World

theorem closing_of_ok {α : Type} {act : PoolM σ α} {a : α} (h : act w = .ok a w') :
    closing p act w = .ok a w' := by
  rw [closing, h]

/-- A pool in order can be closed. -/
theorem close_closes (ht : w.Tidy p pool) :
    ∃ full free loose w', pool.arena.Inventory full free loose ∧
      pool.arena.drain = .ok ((full ++ free ++ loose).map (·.2), .empty) ∧
      close p w = .ok () w' ∧ Closes p pool ((full ++ free ++ loose).map (·.2)) w w' := by
  obtain ⟨wiring, hw⟩ := ht.sound
  obtain ⟨full, free, loose, hinventory, hdrain⟩ := hw.drain_inventory
  let buffers := (full ++ free ++ loose).map (·.2)
  let w₁ := w.setArena p .empty
  let w₂ := w₁.emit (.noted p (.closing buffers.length pool.arena.detached))
  have hnodup : buffers.Nodup := hinventory.perm_values.nodup_iff.2 ht.nodup
  have hhome : ∀ b ∈ buffers, w₂.home? b = some p := by
    intro b hb
    obtain ⟨⟨key, b⟩, he, rfl⟩ := List.mem_map.1 hb
    have hget := (hinventory.complete key b).1 he
    rw [Arena.get?_eq_place?, ← place?_of_pool? ht.present] at hget
    obtain ⟨⟨b', lane⟩, hplace, rfl⟩ := Option.map_eq_some_iff.1 hget
    exact ht.home key _ lane hplace
  have hon : onArena p (·.drain) w = .ok buffers w₁ := onArena_of_ok ht.present hdrain
  have hnote : note p (.closing buffers.length pool.arena.detached) w₁ = .ok () w₂ := rfl
  obtain ⟨w₃, hretire, hsent⟩ := retireAll_sentOff hnodup hhome
  have hclose : close p w = .ok () (w₃.retirePool p) := by
    rw [close, bind_of_ok _ (getPool_of_some ht.present), bind_of_ok _ hon, bind_of_ok _ hnote,
      bind_of_ok _ hretire]
    rfl
  have hpools : ∀ q : PoolId, (w₃.retirePool p).pools[q]? =
      if q = p then (w.pools[q]?).map fun pool =>
        { pool with
          arena := .empty
          allocated := buffers.foldl (fun n b => n - (w.buffer b).totalSize) pool.allocated
          live := false }
      else w.pools[q]? := by
    intro q
    have hset : w₂.pools[q]? = if p = q then (w.pools[q]?).map fun pool =>
        { pool with arena := .empty } else w.pools[q]? := Array.getElem?_modify ..
    have hretired : (w₃.retirePool p).pools[q]? = if p = q then (w₃.pools[q]?).map fun pool =>
        { pool with live := false } else w₃.pools[q]? := Array.getElem?_modify ..
    rw [hretired, hsent.pools, hset]
    by_cases hq : q = p
    · simp only [hq, if_true, Option.map_map]
      rfl
    · simp [hq, Ne.symm hq]
  refine ⟨full, free, loose, _, hinventory, hdrain, hclose, hsent.told, hsent.cells, ?closed,
    fun q hq => (hpools q).trans (if_neg hq), ?rest⟩
  case closed =>
    have hpool := hpools p
    rw [if_pos rfl, (pool?_eq_some_iff.1 ht.present).1, Option.map_some] at hpool
    exact ⟨_, hpool⟩
  case rest =>
    rw [retirePool, World.modifyPool, hsent.rest]
    rfl

end Pool

end BufferPool
