import BufferPool.Proofs.Pool.Outcome
import BufferPool.Proofs.World.Books

/-!
# Sending buffers off

What leaves an arena for good is sent off, buffer by buffer. The listener is told of each of them, and
the payload goes back at once if nobody has a handle. What somebody has a handle to stays as it is,
without a pool.
-/

namespace BufferPool

open PoolM

variable {σ : Type} {w w₁ w' : World σ} {p : PoolId} {pool : Pool} {b : BufferId}
  {buffers rest : List BufferId}

namespace World

/-- The number of the payload of a buffer, if a recorded heap granted it. -/
def tag? (w : World σ) (b : BufferId) : Option Nat := w.cells[b]?.bind (·.tag)

/-- What is heard of a buffer when it leaves a pool, the earliest event first. The payload goes back if
this takes the last reference. -/
def sendOff (w : World σ) (p : PoolId) (b : BufferId) : List Event :=
  [.deallocated p b (w.buffer b).totalSize, .noted p (.deallocated (w.buffer b).totalSize)] ++
    if w.refs b = 1 then [.freed p b (w.tag? b) (w.buffer b).capacity] else []

/-- The pool has given up its references to the buffers, one after the other. -/
structure SentOff (p : PoolId) (buffers : List BufferId) (w w' : World σ) : Prop where
  told : w'.events = (buffers.flatMap (w.sendOff p)).reverse ++ w.events
  cells : ∀ b : BufferId, w'.cells[b]? = w.cells[b]?.map fun c =>
    if b ∈ buffers then { c with refs := c.refs - 1 } else c
  pools : ∀ q : PoolId, w'.pools[q]? = w.pools[q]?.map fun pool =>
    if q = p then
      { pool with
        allocated := buffers.foldl (fun n b => n - (w.buffer b).totalSize) pool.allocated }
    else pool
  /-- Nothing else has changed. -/
  rest : w' = { w with pools := w'.pools, cells := w'.cells, events := w'.events }

theorem sendOff_congr (h : w'.cells[b]? = w.cells[b]?) : w'.sendOff p b = w.sendOff p b := by
  rw [sendOff, tag?, h, buffer_congr h, refs_congr h]
  rfl

theorem sentOff_nil (p : PoolId) (w : World σ) : SentOff p [] w w := by
  refine ⟨rfl, fun b => ?_, fun q => ?_, rfl⟩
  · simp
  · simp

/-- The buffers are as they were. -/
theorem SentOff.buffer (h : SentOff p buffers w w') (b : BufferId) : w'.buffer b = w.buffer b := by
  rw [World.buffer, h.cells, World.buffer, Option.map_map]
  congr 2
  funext c
  simp only [Function.comp_apply]
  split_ifs <;> rfl

/-- One buffer, and then the others. -/
theorem SentOff.cons (hfirst : SentOff p [b] w w₁) (hrest : SentOff p rest w₁ w')
    (hnot : b ∉ rest) : SentOff p (b :: rest) w w' := by
  have hsame : ∀ b' ∈ rest, w₁.cells[b']? = w.cells[b']? := by
    intro b' hb'
    have hne : b' ∉ [b] := fun he => hnot (List.mem_singleton.1 he ▸ hb')
    rw [hfirst.cells]
    simp only [if_neg hne, Option.map_id']
  refine ⟨?told, fun b' => ?cells, fun q => ?pools, ?rest⟩
  case told =>
    have hrestOff : rest.flatMap (w₁.sendOff p) = rest.flatMap (w.sendOff p) :=
      List.flatMap_congr fun b' hb' => sendOff_congr (hsame b' hb')
    rw [hrest.told, hfirst.told, hrestOff, List.flatMap_cons, List.flatMap_cons, List.flatMap_nil,
      List.append_nil, List.reverse_append, List.append_assoc]
  case cells =>
    rw [hrest.cells, hfirst.cells, Option.map_map]
    congr 1
    funext c
    by_cases hb : b' = b
    · simp [hb, hnot]
    · simp [hb]
  case pools =>
    rw [hrest.pools, hfirst.pools, Option.map_map]
    congr 1
    funext pool
    by_cases hq : q = p
    · simp [hq, hfirst.buffer]
    · simp [hq]
  case rest => rw [hrest.rest, hfirst.rest]

/-- The last reference takes the payload along. -/
theorem events_drop_last {c : Cell} (hc : w.cells[b]? = some c) (h : c.refs = 1) :
    (w.drop b).events = .freed c.home b c.tag c.buffer.capacity :: w.events := by
  unfold drop
  rw [hc]
  exact congrArg World.events (if_pos h)

end World

namespace Pool

open World

/-- A buffer that was made for the pool is sent off. -/
theorem retire_sentOff (hhome : w.home? b = some p) :
    ∃ w₁, retire p b w = .ok () w₁ ∧ SentOff p [b] w (w₁.drop b) := by
  obtain ⟨c, hc, rfl⟩ := Option.map_eq_some_iff.1 hhome
  let total := (w.buffer b).totalSize
  let w₁ : World σ := ((w.modifyPool c.home fun pool =>
    { pool with allocated := pool.allocated - total }).emit (.deallocated c.home b total)).emit
      (.noted c.home (.deallocated total))
  have hc₁ : w₁.cells[b]? = some c := hc
  refine ⟨w₁, rfl, ?told, fun b' => ?cells, fun q => ?pools, ?rest⟩
  case told =>
    have hbuffer : w.buffer b = c.buffer := buffer_of_getElem? hc
    rw [List.flatMap_singleton, sendOff, tag?, refs_of_getElem? hc, hc]
    by_cases hlast : c.refs = 1
    · rw [events_drop_last hc₁ hlast, if_pos hlast, ← hbuffer]
      rfl
    · rw [drop_of_ne_one hc₁ hlast, if_neg hlast]
      rfl
  case cells =>
    rw [getElem?_drop]
    change (if b' = b then (w.cells[b']?).map _ else w.cells[b']?) = _
    by_cases hb : b' = b
    · simp [hb]
    · simp [hb]
  case pools =>
    rw [pools_drop]
    change (w.pools.modify c.home _)[q]? = _
    rw [Array.getElem?_modify]
    by_cases hq : q = c.home
    · simp [hq, total]
    · simp [hq, Ne.symm hq]
  case rest =>
    rw [drop_eq]
    rfl

/-- Different buffers that were made for the pool are sent off in their order. -/
theorem retireAll_sentOff (hnodup : buffers.Nodup) (hhome : ∀ b ∈ buffers, w.home? b = some p) :
    ∃ w', retireAll p buffers w = .ok () w' ∧ SentOff p buffers w w' := by
  induction buffers generalizing w with
  | nil => exact ⟨w, rfl, sentOff_nil p w⟩
  | cons b rest ih =>
      obtain ⟨hnot, hnodup⟩ := List.nodup_cons.1 hnodup
      obtain ⟨w₁, hretire, hfirst⟩ := retire_sentOff (hhome b List.mem_cons_self)
      have hhome₁ : ∀ b' ∈ rest, (w₁.drop b).home? b' = some p := by
        intro b' hb'
        rw [← hhome b' (List.mem_cons_of_mem _ hb'), home?, hfirst.cells, Option.map_map, home?]
        congr 1
        funext c
        simp only [Function.comp_apply]
        split_ifs <;> rfl
      obtain ⟨w', hrest, hsent⟩ := ih hnodup hhome₁
      refine ⟨w', ?_, hfirst.cons hsent hnot⟩
      rw [retireAll, bind_of_ok _ hretire]
      exact hrest

end Pool

end BufferPool
