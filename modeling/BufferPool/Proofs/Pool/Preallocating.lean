import BufferPool.Proofs.Pool.Closing
import BufferPool.Proofs.Pool.Supplying

/-!
# Filling a pool

A pool that is set up asks for its buffers one after the other and puts each of them at the head of its
free lane. While all requests are met, nothing else happens, so the world after some of them can be
written down.
-/

namespace BufferPool

open Arena (Catalog)
open PoolM

variable {σ : Type} {w w' : World σ} {p : PoolId} {pool : Pool} {requested capacity : UInt64}

namespace World

theorem modify_modify {α : Type} (xs : Array α) (i : Nat) (f g : α → α) :
    (xs.modify i f).modify i g = xs.modify i fun x => g (f x) := by
  apply Array.ext_getElem?
  intro j
  simp only [Array.getElem?_modify]
  split_ifs
  · rw [Option.map_map]
    rfl
  · rfl

theorem modify_push_size {α : Type} (xs : Array α) (x : α) (f : α → α) :
    (xs.push x).modify xs.size f = xs.push (f x) := by
  apply Array.ext_getElem?
  intro i
  rw [Array.getElem?_modify, Array.getElem?_push, Array.getElem?_push]
  by_cases hi : i = xs.size
  · rw [if_pos hi.symm, if_pos hi, if_pos hi]
    rfl
  · rw [if_neg (Ne.symm hi), if_neg hi, if_neg hi]

/-- The cell of the next buffer of a pool. The one reference to it is that of the arena or of whoever has
asked. -/
def nextCell (w : World σ) (p : PoolId) (heap : Heap) (capacity : UInt64) : Cell :=
  ⟨.fresh w.format capacity, 1, p, if heap.recorded then some w.tags else none⟩

/-- The world after a request to a pool was met. -/
def supplied (w : World σ) (p : PoolId) (heap : Heap) (requested capacity : UInt64) : World σ :=
  let c := w.nextCell p heap capacity
  { w with
    maker := w.makerAfter capacity 1
    pools := w.pools.modify p fun pool => { pool with
      heap := pool.heap.afterAll capacity 1
      allocated := pool.allocated + c.buffer.totalSize }
    cells := w.cells.push c
    tags := if heap.recorded then w.tags + 1 else w.tags
    events := .noted p (.allocated requested capacity c.buffer.totalSize) ::
      .allocated p w.cells.size c.buffer.totalSize ::
      .granted p w.cells.size c.tag capacity :: w.events }

/-- The world after a request to a pool was met and the new buffer put at the head of the free lane. -/
def shelved (w : World σ) (p : PoolId) (heap : Heap) (capacity : UInt64) (key : Arena.Key)
    (arena : Arena BufferId) : World σ :=
  ((w.supplied p heap capacity capacity).setArena p arena).emit (.inserted p .free key)

theorem setArena_setArena (w : World σ) (p : PoolId) (arena arena' : Arena BufferId) :
    (w.setArena p arena).setArena p arena' = w.setArena p arena' := by
  have hpools := modify_modify w.pools p (fun pool => { pool with arena := arena })
    (fun pool => { pool with arena := arena' })
  exact congrArg (fun pools => { w with pools := pools }) hpools

/-- A reference that is taken and given up again. -/
theorem drop_retain {b : BufferId} {c : Cell} (hc : w.cells[b]? = some c) (hrefs : c.refs ≠ 0) :
    (w.retain b).drop b = w := by
  have hretained : (w.retain b).cells[b]? = some { c with refs := c.refs + 1 } := by
    rw [getElem?_retain, if_pos rfl, hc]
    rfl
  have hcells : ((w.retain b).cells.setIfInBounds b c) = w.cells := by
    apply Array.ext_getElem?
    intro i
    rw [Array.getElem?_setIfInBounds]
    by_cases hi : b = i
    · subst hi
      rw [if_pos rfl, if_pos (Array.getElem?_eq_some_iff.1 hretained).choose, hc]
    · rw [if_neg hi, getElem?_retain, if_neg (Ne.symm hi)]
  unfold drop
  rw [hretained]
  dsimp only
  rw [if_neg (by omega), Nat.add_sub_cancel]
  exact congrArg (fun cells => { w with cells := cells }) hcells

theorem Stocks.inventory {minimum : UInt64} {c : Catalog BufferId} {arena : Arena BufferId}
    (hs : w.Stocks p minimum c) (ha : w.arena? p = some arena)
    (hnone : ∀ key b, arena.place? key ≠ some (b, none)) :
    arena.Sound ∧ arena.Inventory (w.row p .full) (w.row p .free) [] := by
  obtain ⟨arena', wiring, ha', hw, -⟩ := hs.catalog
  obtain rfl : arena' = arena := Option.some.inj (ha'.symm.trans ha)
  have hi := hw.inventory
  have hloose : arena'.loose.map (fun o => (o.1, o.2.value)) = [] := by
    rw [List.eq_nil_iff_forall_not_mem]
    exact fun e he => hnone e.1 e.2 ((hi.detached e.1 e.2).1 he)
  rw [hloose] at hi
  refine ⟨⟨wiring, hw⟩, ?_⟩
  rw [row_of_arena? ha hi.entries_full, row_of_arena? ha hi.entries_free]
  exact hi

end World

namespace Pool

open World

/-- A request that is met. -/
theorem make_of_supplies (hp : w.pool? p = some pool)
    (hclass : SizeClass.ofRequest? requested pool.minimum = some capacity)
    (hs : w.supplies p capacity = true) :
    make p requested w = .ok (some w.cells.size) (w.supplied p pool.heap requested capacity) := by
  let c := w.nextCell p pool.heap capacity
  rw [supplies, heap?, hp, Bool.and_eq_true] at hs
  obtain ⟨hgrants, hready⟩ := hs
  have hgrants' : pool.heap.supply.grants capacity = true := hgrants
  let w₁ : World σ := { w with
    pools := w.pools.modify p fun pool => { pool with heap := pool.heap.afterAll capacity 1 }
    cells := w.cells.push c
    tags := if pool.heap.recorded then w.tags + 1 else w.tags
    events := .granted p w.cells.size c.tag capacity :: w.events }
  have hrequest : requestPayload p capacity w = .ok (some w.cells.size) w₁ := by
    unfold requestPayload
    rw [bind_of_ok _ (getPool_of_some hp)]
    simp only [hgrants', if_true]
    rfl
  have hprepare : prepare capacity w₁ = .ok true { w₁ with maker := w.makerAfter capacity 1 } := by
    rw [prepare_answer, ← hready]
    rfl
  unfold make
  rw [bind_of_ok _ (getPool_of_some hp)]
  simp only [hclass]
  rw [bind_of_ok _ hrequest]
  dsimp only
  rw [bind_of_ok _ hprepare]
  have hbuffer : w₁.buffer w.cells.size = c.buffer :=
    buffer_of_getElem? (w := w₁) (c := c) Array.getElem?_push_size
  have htotal : (getBuffer w.cells.size : PoolM σ Buffer) { w₁ with maker := w.makerAfter capacity 1 } =
      .ok c.buffer { w₁ with maker := w.makerAfter capacity 1 } := by
    rw [← hbuffer]
    rfl
  simp only [if_true]
  rw [bind_of_ok _ htotal]
  have hpools := modify_modify w.pools p
    (fun pool => { pool with heap := pool.heap.afterAll capacity 1 })
    (fun pool => { pool with allocated := pool.allocated + c.buffer.totalSize })
  exact congrArg (fun pools => EStateM.Result.ok (some w.cells.size)
    { w.supplied p pool.heap requested capacity with pools := pools }) hpools

/-- A new buffer is registered and put at the head of the free lane, and the handle is given up. -/
theorem shelve {minimum : UInt64} {c : Catalog BufferId} {b : BufferId} {cell : Cell}
    (hs : w.Stocks p minimum c) (hcell : w.cells[b]? = some cell) (hrefs : cell.refs ≠ 0)
    (hnone : ∀ key b, c.place key ≠ some (b, none)) :
    ∃ key arena w₁ w₂, enroll p b w = .ok ⟨p, key, b⟩ w₁ ∧
      insert p .free ⟨p, key, b⟩ w₁ = .ok () w₂ ∧
      w₂.drop b = (w.setArena p arena).emit (.inserted p .free key) ∧ arena.Sound ∧
      arena.Inventory (w.row p .full) ((key, b) :: w.row p .free) [] := by
  obtain ⟨key, arena₁, hfree, hregister, hs₁⟩ := stocks_register hs b
  let w₁ := (w.setArena p arena₁).retain b
  have hs₁' : w₁.Stocks p minimum (c.add key b) := hs₁.quiet (World.quiet_retain _ b)
  have henroll : enroll p b w = .ok ⟨p, key, b⟩ w₁ := by
    rw [enroll, bind_of_ok _ (owning_of_ok hregister)]
    rfl
  have hplace : (c.add key b).place key = some (b, none) := Function.update_self ..
  obtain ⟨arena, hprepend, hs₂⟩ := stocks_prepend hs₁' .free hplace
  let w₂ := (w₁.setArena p arena).emit (.inserted p .free key)
  have hinsert : insert p .free ⟨p, key, b⟩ w₁ = .ok () w₂ := by
    have howner : checkOwner p ⟨p, key, b⟩ w₁ = .ok () w₁ := checkOwner_of_eq rfl
    unfold insert
    rw [bind_of_ok _ howner, bind_of_ok _ hprepend]
    rfl
  have hworld : w₂.drop b = (w.setArena p arena).emit (.inserted p .free key) := by
    let w₃ := (w.setArena p arena).emit (.inserted p .free key)
    have hkept : w₂ = w₃.retain b := congrArg (fun w => (w.emit (.inserted p .free key)).retain b)
      (setArena_setArena w p arena₁ arena)
    have hcell₃ : w₃.cells[b]? = some cell := hcell
    rw [hkept, drop_retain hcell₃ hrefs]
  obtain ⟨pool₁, -, hp₁, -⟩ := hs₁'.pool
  have harena : (w₁.setArena p arena).arena? p = some arena := by
    rw [arena?_setArena arena hp₁, if_pos rfl]
  have hattached : ∀ k b', arena.place? k ≠ some (b', none) := by
    intro k b' hk
    have hk' : ((c.add key b).enter .free key b).place k = some (b', none) := by
      rw [← hs₂.place?, World.place?, harena]
      exact hk
    rw [Catalog.place_enter, Catalog.place_add] at hk'
    split_ifs at hk' with hsame
    · cases hk'
    · exact hnone k b' hk'
  obtain ⟨hsound, hi⟩ := hs₂.inventory harena hattached
  have hrow : ∀ lane, (w₁.setArena p arena).row p lane =
      if lane = .free then (key, b) :: w.row p lane else w.row p lane := by
    intro lane
    rw [hs₁'.row_enter hplace hs₂ lane, hs.row_add hfree hs₁' lane]
  have hother : Lane.full ≠ .free := by decide
  rw [hrow, hrow, if_neg hother, if_pos rfl] at hi
  exact ⟨key, arena, w₁, w₂, henroll, hinsert, hworld, hsound, hi⟩

/-- A request of the smallest class that is met while all buffers are in the free lane. The new one is
put there too. -/
theorem preallocate_succ_of_supplies {items : List (Arena.Key × BufferId)}
    (hp : w.pool? p = some pool) (hsound : pool.arena.Sound)
    (hi : pool.arena.Inventory [] items [])
    (hclass : SizeClass.ofRequest? pool.minimum pool.minimum = some pool.minimum)
    (hsup : w.supplies p pool.minimum = true) :
    ∃ key arena, arena.Sound ∧ arena.Inventory [] ((key, w.cells.size) :: items) [] ∧
      ∀ allocated remaining, preallocate p allocated (remaining + 1) w =
        preallocate p (allocated + 1) remaining
          (w.shelved p pool.heap pool.minimum key arena) := by
  obtain ⟨wiring, hw⟩ := hsound
  let c := pool.arena.catalog wiring
  let w₁ := w.supplied p pool.heap pool.minimum pool.minimum
  have hs : w.Stocks p pool.minimum c :=
    ⟨minimum?_of_pool? hp, pool.arena, wiring, arena?_of_pool? hp, hw, rfl⟩
  have hreclaim := reclaim_of_detached_eq_zero hp (hi.detached_eq_zero hw)
  have hmake : make p pool.minimum w = .ok (some w.cells.size) w₁ := make_of_supplies hp hclass hsup
  have hquiet := quiet_make p pool.minimum w
  rw [leaves_of_ok hmake] at hquiet
  have hcell : w₁.cells[w.cells.size]? = some (w.nextCell p pool.heap pool.minimum) :=
    Array.getElem?_push_size
  have hnone : ∀ key b, c.place key ≠ some (b, none) := fun key b hplace =>
    List.not_mem_nil ((hi.detached key b).2 hplace)
  obtain ⟨key, arena, w₂, w₃, henroll, hinsert, hworld, hsound, hi'⟩ :=
    shelve (hs.quiet hquiet) hcell Nat.one_ne_zero hnone
  have hrow : ∀ {lane entries}, pool.arena.entries lane .forward = .ok entries →
      w₁.row p lane = entries := fun he =>
    (World.row_congr (hquiet.arena p) _).trans (row_of_arena? (arena?_of_pool? hp) he)
  rw [hrow hi.entries_full, hrow hi.entries_free] at hi'
  refine ⟨key, arena, hsound, hi', fun allocated remaining => ?_⟩
  have hallocate : allocateWithin p pool.minimum w = .ok (some ⟨p, key, w.cells.size⟩) w₂ := by
    rw [allocateWithin_eq_allocate, allocate_of_reclaim hreclaim, bind_of_ok _ hmake]
    exact bind_of_ok _ henroll
  rw [preallocate, bind_of_ok _ (getPool_of_some hp), bind_of_ok _ hallocate]
  dsimp only
  rw [bind_of_ok _ (owning_of_ok hinsert)]
  exact congrArg (preallocate p (allocated + 1) remaining) hworld

end Pool

namespace World

/-- The cell of a buffer that a new pool has asked for, with the only reference that of the arena. -/
def newCell (w : World σ) (c : Config) (minimum : UInt64) (b : BufferId) : Cell :=
  ⟨.fresh w.format minimum, 1, w.pools.size,
    if c.heap.recorded then some (w.tags + (b - w.cells.size)) else none⟩

/-- What happens while a new pool gets a buffer. -/
def shelving (w : World σ) (c : Config) (minimum : UInt64) (e : Arena.Key × BufferId) : List Event :=
  let cell := w.newCell c minimum e.2
  [.granted cell.home e.2 cell.tag minimum, .allocated cell.home e.2 cell.buffer.totalSize,
    .noted cell.home (.allocated minimum minimum cell.buffer.totalSize),
    .inserted cell.home .free e.1]

/-- The world with one more pool, which has as many buffers as keys, with this arena. -/
def stocked (w : World σ) (c : Config) (minimum : UInt64) (keys : List Arena.Key)
    (arena : Arena BufferId) : World σ :=
  { w with
    maker := w.makerAfter minimum keys.length
    pools := w.pools.push ⟨c, minimum, c.heap.afterAll minimum keys.length, arena,
      .ofNat (keys.length * (Buffer.fresh w.format minimum).totalSize.toNat), 0, true⟩
    cells := w.cells ++ ((List.range' w.cells.size keys.length).map (w.newCell c minimum)).toArray
    tags := if c.heap.recorded then w.tags + keys.length else w.tags
    events := ((keys.zipIdx w.cells.size).flatMap (w.shelving c minimum)).reverse ++ w.events }

/-- Whether the next request will be met, when so many were. -/
def meets (w : World σ) (c : Config) (minimum : UInt64) (n : Nat) : Bool :=
  (c.heap.afterAll minimum n).supply.grants minimum &&
    (w.format == .plain || (w.maker.afterAll minimum n).grants minimum)

variable {c : Config} {minimum : UInt64} {keys : List Arena.Key} {arena : Arena BufferId}

theorem pool?_stocked : (w.stocked c minimum keys arena).pool? w.pools.size =
    some ⟨c, minimum, c.heap.afterAll minimum keys.length, arena,
      .ofNat (keys.length * (Buffer.fresh w.format minimum).totalSize.toNat), 0, true⟩ := by
  rw [pool?, stocked, Array.getElem?_push_size]
  rfl

theorem supplies_stocked : (w.stocked c minimum keys arena).supplies w.pools.size minimum =
    w.meets c minimum keys.length := by
  have hmaker : (w.format == .plain ||
      (w.stocked c minimum keys arena).maker.grants minimum) =
      (w.format == .plain || (w.maker.afterAll minimum keys.length).grants minimum) := by
    change (w.format == .plain || (w.makerAfter minimum keys.length).grants minimum) = _
    unfold makerAfter
    cases w.format <;> rfl
  rw [supplies, heap?, pool?_stocked, meets, ← hmaker]
  rfl

theorem size_stocked : (w.stocked c minimum keys arena).cells.size = w.cells.size + keys.length := by
  simp [stocked]

theorem nextCell_stocked : (w.stocked c minimum keys arena).nextCell w.pools.size
    (c.heap.afterAll minimum keys.length) minimum =
      w.newCell c minimum (w.cells.size + keys.length) := by
  rw [nextCell, newCell, Nat.add_sub_cancel_left]
  simp only [stocked, Heap.afterAll]
  split_ifs <;> rfl

theorem makerAfter_stocked : (w.stocked c minimum keys arena).makerAfter minimum 1 =
    w.makerAfter minimum (keys.length + 1) := by
  obtain ⟨profile, format, maker, pools, cells, tags, held, events, client⟩ := w
  cases format with
  | plain => rfl
  | metered => exact (Supply.afterAll_succ ..).symm

/-- One more buffer. -/
theorem shelved_stocked (key : Arena.Key) (arena' : Arena BufferId) :
    (w.stocked c minimum keys arena).shelved w.pools.size (c.heap.afterAll minimum keys.length)
      minimum key arena' = w.stocked c minimum (keys ++ [key]) arena' := by
  have hnext : (w.stocked c minimum keys arena).nextCell w.pools.size
      (c.heap.afterAll minimum keys.length) minimum =
        w.newCell c minimum (w.cells.size + keys.length) := nextCell_stocked
  have hshelf : (keys ++ [key]).zipIdx w.cells.size =
      keys.zipIdx w.cells.size ++ [(key, w.cells.size + keys.length)] := by
    rw [List.zipIdx_append]
    rfl
  unfold shelved supplied setArena modifyPool emit
  rw [hnext]
  unfold stocked
  simp only [World.mk.injEq, true_and, and_true, hshelf, List.length_append, List.length_singleton]
  refine ⟨?maker, ?pools, ?cells, ?tags, ?events⟩
  case maker => exact makerAfter_stocked
  case pools =>
    rw [modify_push_size, modify_push_size]
    congr 2
    · exact (Heap.afterAll_succ ..).symm
    · rw [Nat.succ_mul, UInt64.ofNat_add, UInt64.ofNat_toNat]
      rfl
  case cells => simp [List.range'_1_concat]
  case tags =>
    change (if c.heap.recorded then _ else _) = _
    split_ifs <;> rfl
  case events => simp [shelving, newCell]

theorem stocked_nil : w.stocked c minimum [] arena =
    { w with pools := w.pools.push ⟨c, minimum, c.heap, arena, 0, 0, true⟩ } := by
  have hmaker : w.makerAfter minimum 0 = w.maker := by
    unfold makerAfter
    cases w.format <;> rfl
  have htags : (if c.heap.recorded then w.tags + 0 else w.tags) = w.tags := by
    split_ifs <;> rfl
  unfold stocked
  simp only [List.length_nil, hmaker, htags, Nat.zero_mul, List.range'_zero, List.zipIdx_nil,
    List.map_nil, Array.append_empty, List.flatMap_nil, List.reverse_nil, List.nil_append]
  rfl

end World

namespace Pool

open World

variable {c : Config} {minimum : UInt64}

/-- While the requests are met, the pool gets one buffer after the other. -/
theorem preallocate_stocked (hclass : SizeClass.ofRequest? minimum minimum = some minimum) {n : Nat}
    (hmeets : ∀ i < n, w.meets c minimum i = true) :
    ∃ keys arena, keys.length = n ∧ arena.Sound ∧
      arena.Inventory [] (keys.zipIdx w.cells.size).reverse [] ∧
      ∀ remaining, preallocate w.pools.size 0 (n + remaining) (w.stocked c minimum [] .empty) =
        preallocate w.pools.size n remaining (w.stocked c minimum keys arena) := by
  induction n with
  | zero =>
      have hwired := Arena.empty_wired (α := BufferId)
      refine ⟨[], .empty, rfl, ⟨_, hwired⟩, hwired.inventory, fun remaining => ?_⟩
      rw [Nat.zero_add]
  | succ n ih =>
      obtain ⟨keys, arena, rfl, hsound, hi, hrun⟩ := ih fun i hi => hmeets i (Nat.lt_succ_of_lt hi)
      have hsup : (w.stocked c minimum keys arena).supplies w.pools.size minimum = true :=
        supplies_stocked.trans (hmeets _ (Nat.lt_succ_self _))
      obtain ⟨key, arena', hsound', hi', hnext⟩ :=
        preallocate_succ_of_supplies pool?_stocked hsound hi hclass hsup
      refine ⟨keys ++ [key], arena', List.length_append, hsound', ?_, fun remaining => ?_⟩
      · rw [List.zipIdx_append, List.reverse_append]
        rwa [size_stocked] at hi'
      · rw [Nat.succ_add_eq_add_succ, hrun, hnext, shelved_stocked]

end Pool

end BufferPool
