import BufferPool.Proofs.Pool.Preallocating
import BufferPool.Proofs.World.Totals

/-!
# Giving up a new pool

When a request is not met, the pool that is being set up is closed with what it has. Each of its buffers
is retired, and the heap gets back what it has granted.
-/

namespace BufferPool

open PoolM

variable {σ : Type} {w w' : World σ} {p : PoolId} {pool : Pool} {capacity minimum : UInt64}
  {c : Config} {keys : List Arena.Key} {arena : Arena BufferId} {b : BufferId} {told : List Event}

namespace World

/-- What happens when a new pool that is closed again sends a buffer off. -/
def unshelving (w : World σ) (c : Config) (minimum : UInt64) (b : BufferId) : List Event :=
  let cell := w.newCell c minimum b
  [.deallocated cell.home b cell.buffer.totalSize, .noted cell.home (.deallocated cell.buffer.totalSize),
    .freed cell.home b cell.tag minimum]

/-- A pool had got these buffers when a request was not met, and has been closed. -/
structure Undone (c : Config) (minimum : UInt64) (keys : List Arena.Key) (told : List Event)
    (w w' : World σ) : Prop where
  answers : ∃ arena, arena.Inventory [] (keys.zipIdx w.cells.size).reverse [] ∧
    (w.stocked c minimum keys arena).Answers w.pools.size minimum minimum none told
  /-- All that has happened, in order: buffers are put into the free lane one by one, a request is not met,
  and then the buffers are sent off from the head of the lane on. -/
  events : w'.events =
    ((keys.zipIdx w.cells.size).flatMap (w.shelving c minimum) ++ told.reverse ++
      [Event.noted w.pools.size (.preallocationFailed keys.length c.cacheCount),
        Event.noted w.pools.size (.closing keys.length 0)] ++
      (List.range' w.cells.size keys.length).reverse.flatMap (w.unshelving c minimum)).reverse ++
        w.events
  maker : w'.maker = w.makerAfter minimum
    (if (c.heap.afterAll minimum keys.length).supply.grants minimum then keys.length + 1
      else keys.length)
  pools : ∃ allocated, w'.pools = w.pools.push
    ⟨c, minimum, c.heap.afterAll minimum (keys.length + 1), .empty, allocated, 0, false⟩
  cells : ∀ b < w.cells.size, w'.cells[b]? = w.cells[b]?
  lost : ∀ b, w.cells.size ≤ b → w'.refs b = 0
  /-- Nothing else has changed. -/
  rest : w' = { w with
    maker := w'.maker, pools := w'.pools, cells := w'.cells, tags := w'.tags, events := w'.events }

theorem getElem?_stocked_of_lt (hb : b < w.cells.size) :
    (w.stocked c minimum keys arena).cells[b]? = w.cells[b]? :=
  Array.getElem?_append_left hb

theorem getElem?_stocked (hb : b ∈ List.range' w.cells.size keys.length) :
    (w.stocked c minimum keys arena).cells[b]? = some (w.newCell c minimum b) := by
  obtain ⟨hle, hlt⟩ := List.mem_range'_1.1 hb
  rw [stocked, Array.getElem?_append_right hle, List.getElem?_toArray, List.getElem?_map,
    List.getElem?_range' (by omega), Nat.one_mul, Nat.add_sub_of_le hle]
  rfl

theorem flatMap_of_unique {α β : Type} {l : List α} {f : α → List β} {x : α} (hnodup : l.Nodup)
    (hx : x ∈ l) (hrest : ∀ y, y ≠ x → f y = []) : l.flatMap f = f x := by
  obtain ⟨before, after, rfl⟩ := List.append_of_mem hx
  obtain ⟨-, hafter, hapart⟩ := List.nodup_append.1 hnodup
  have hnone : ∀ l' : List α, x ∉ l' → l'.flatMap f = [] := fun l' hnot =>
    List.flatMap_eq_nil_iff.2 fun y hy => hrest y fun he => hnot (he ▸ hy)
  rw [List.flatMap_append, List.flatMap_cons, hnone before fun hin => ?_,
    hnone after (List.nodup_cons.1 hafter).1, List.nil_append, List.append_nil]
  exact hapart x hin x List.mem_cons_self rfl

/-- What concerns a buffer while the new pool is filled. -/
theorem concerns_shelvings (hb : b ∈ List.range' w.cells.size keys.length) :
    ((keys.zipIdx w.cells.size).flatMap (w.shelving c minimum)).filter (Event.concerns b) =
      [.granted w.pools.size b (w.newCell c minimum b).tag minimum,
        .allocated w.pools.size b (w.newCell c minimum b).buffer.totalSize] := by
  let notices (b' : BufferId) : List Event := if b' = b then
    [.granted w.pools.size b (w.newCell c minimum b).tag minimum,
      .allocated w.pools.size b (w.newCell c minimum b).buffer.totalSize] else []
  have hone : ∀ e : Arena.Key × BufferId,
      (w.shelving c minimum e).filter (Event.concerns b) = notices e.2 := by
    rintro ⟨key, b'⟩
    by_cases hb' : b' = b
    · subst hb'
      simp [notices, shelving, newCell, Event.concerns]
    · simp [notices, shelving, newCell, Event.concerns, hb']
  have hall : (keys.zipIdx w.cells.size).flatMap (fun e => notices e.2) =
      ((keys.zipIdx w.cells.size).map Prod.snd).flatMap notices := (List.flatMap_map ..).symm
  rw [List.filter_flatMap, funext hone, hall, List.zipIdx_map_snd,
    flatMap_of_unique List.nodup_range' hb fun b' hb' => if_neg hb']
  exact if_pos rfl

/-- What concerns a buffer when it is sent off. -/
theorem concerns_unshelvings (hb : b ∈ List.range' w.cells.size keys.length) :
    ((List.range' w.cells.size keys.length).reverse.flatMap (w.unshelving c minimum)).filter
        (Event.concerns b) =
      [.deallocated w.pools.size b (w.newCell c minimum b).buffer.totalSize,
        .freed w.pools.size b (w.newCell c minimum b).tag minimum] := by
  have hnone : ∀ b', b' ≠ b → (w.unshelving c minimum b').filter (Event.concerns b) = [] := by
    intro b' hb'
    simp [unshelving, newCell, Event.concerns, hb']
  rw [List.filter_flatMap, flatMap_of_unique (List.nodup_reverse.2 List.nodup_range')
    (List.mem_reverse.2 hb) hnone]
  simp [unshelving, newCell, Event.concerns]

/-- Each of the buffers was granted, counted, retired and freed, all of it once. -/
theorem Undone.life (h : Undone c minimum keys told w w')
    (hb : b ∈ List.range' w.cells.size keys.length) :
    let cell := w.newCell c minimum b
    w'.life b = [.freed cell.home b cell.tag minimum,
      .deallocated cell.home b cell.buffer.totalSize, .allocated cell.home b cell.buffer.totalSize,
      .granted cell.home b cell.tag minimum] ++ w.life b := by
  intro cell
  have htold : told.filter (Event.concerns b) = [] := by
    obtain ⟨arena, -, hanswers⟩ := h.answers
    have hlast : w.cells.size + keys.length ≠ b := Nat.ne_of_gt (List.mem_range'_1.1 hb).2
    cases hanswers with
    | denied _ he => rcases he with rfl | rfl <;> rfl
    | unready tag _ => simp [size_stocked, Event.concerns, hlast]
  rw [life_append h.events]
  simp only [List.filter_reverse, List.filter_append, concerns_shelvings hb, concerns_unshelvings hb,
    htold]
  rfl

theorem sum_flatMap {α : Type} {f : α → List Event} {weight : Event → Nat} {n : Nat}
    (h : ∀ x, ((f x).map weight).sum = n) (l : List α) :
    ((l.flatMap f).map weight).sum = l.length * n := by
  induction l with
  | nil => exact (Nat.zero_mul n).symm
  | cons x rest ih =>
      rw [List.flatMap_cons, List.map_append, List.sum_append, h, ih, List.length_cons, Nat.succ_mul,
        Nat.add_comm]

/-- The heaps have got back what they have granted. -/
theorem Undone.balance (h : Undone c minimum keys told w w') (q : PoolId) :
    w'.grantedTotal q + w.freedTotal q = w.grantedTotal q + w'.freedTotal q := by
  let share := if w.pools.size = q then minimum.toNat else 0
  have hshelved : ∀ e, ((w.shelving c minimum e).map (Event.grantedBy q)).sum = share := by
    intro e
    simp [shelving, newCell, Event.grantedBy, share]
  have hkept : ∀ e, ((w.shelving c minimum e).map (Event.freedTo q)).sum = 0 := by
    intro e
    simp [shelving, Event.freedTo]
  have hunshelved : ∀ b, ((w.unshelving c minimum b).map (Event.freedTo q)).sum = share := by
    intro b
    simp [unshelving, newCell, Event.freedTo, share]
  have hnothing : ∀ b, ((w.unshelving c minimum b).map (Event.grantedBy q)).sum = 0 := by
    intro b
    simp [unshelving, Event.grantedBy]
  have htold : (told.map (Event.grantedBy q)).sum = (told.map (Event.freedTo q)).sum := by
    obtain ⟨arena, -, hanswers⟩ := h.answers
    cases hanswers with
    | denied _ he => rcases he with rfl | rfl <;> rfl
    | unready tag _ => simp [Event.grantedBy, Event.freedTo]
  unfold grantedTotal freedTotal
  rw [h.events]
  simp only [List.map_append, List.sum_append, List.map_reverse, List.sum_reverse,
    sum_flatMap hshelved, sum_flatMap hkept, sum_flatMap hunshelved, sum_flatMap hnothing, htold,
    List.length_reverse, List.length_zipIdx, List.length_range']
  simp only [List.map_cons, List.map_nil, List.sum_cons, List.sum_nil, Event.grantedBy, Event.freedTo]
  omega

end World

namespace Pool

open World

/-- A request for the smallest class was not met, and nothing has come of it. The heap was asked once, and
the set-up if the heap has granted a payload. -/
structure Unmet (p : PoolId) (heap : Heap) (capacity : UInt64) (told : List Event)
    (w w' : World σ) : Prop where
  answers : w.Answers p capacity capacity none told
  events : w'.events = told ++ w.events
  pools : w'.pools =
    w.pools.modify p fun pool => { pool with heap := pool.heap.afterAll capacity 1 }
  maker : w'.maker = if heap.supply.grants capacity then w.makerAfter capacity 1 else w.maker
  cells : ∀ b < w.cells.size, w'.cells[b]? = w.cells[b]?
  lost : ∀ b, w.cells.size ≤ b → w'.refs b = 0
  /-- Nothing else has changed. -/
  rest : w' = { w with
    maker := w'.maker, pools := w'.pools, cells := w'.cells, tags := w'.tags, events := w'.events }

/-- Whatever comes of a request to a heap, the heap was asked once. -/
theorem requestPayload_asks {got : Option BufferId} (hp : w.pool? p = some pool)
    (h : requestPayload p capacity w = .ok got w') :
    got.isSome = pool.heap.supply.grants capacity ∧ w'.maker = w.maker ∧ w'.format = w.format ∧
      w'.pools = w.pools.modify p fun pool => { pool with heap := pool.heap.afterAll capacity 1 } := by
  unfold requestPayload at h
  rw [bind_of_ok _ (getPool_of_some hp)] at h
  cases hgrants : pool.heap.supply.grants capacity with
  | true =>
      simp only [hgrants, if_true] at h
      obtain ⟨rfl, rfl⟩ := EStateM.Result.ok.inj h
      exact ⟨rfl, rfl, rfl, rfl⟩
  | false =>
      simp only [hgrants] at h
      obtain ⟨rfl, rfl⟩ := EStateM.Result.ok.inj h
      exact ⟨rfl, rfl, rfl, rfl⟩

theorem make_of_not_supplies (hp : w.pool? p = some pool)
    (hclass : SizeClass.ofRequest? capacity pool.minimum = some capacity)
    (hs : w.supplies p capacity = false) :
    ∃ told w', make p capacity w = .ok none w' ∧ Unmet p pool.heap capacity told w w' := by
  obtain ⟨made, w', hmake, hmakes⟩ := make_makes hp hclass
  obtain rfl : made = none := by rw [hmakes.answer, hs]; rfl
  obtain ⟨told, hanswer, htold⟩ := hmakes.told
  have hquiet := quiet_make p capacity w
  rw [leaves_of_ok hmake] at hquiet
  have hasked : w'.pools =
      w.pools.modify p (fun pool => { pool with heap := pool.heap.afterAll capacity 1 }) ∧
      w'.maker = if pool.heap.supply.grants capacity then w.makerAfter capacity 1 else w.maker := by
    have hr := hmake
    unfold make at hr
    rw [bind_of_ok _ (getPool_of_some hp)] at hr
    simp only [hclass] at hr
    obtain ⟨got, w₁, hrequest, hrest⟩ := bind_eq_ok hr
    obtain ⟨hgot, hmaker, hformat, hpools⟩ := requestPayload_asks hp hrequest
    rw [← hgot, ← hpools]
    cases got with
    | none =>
        obtain ⟨-, rfl⟩ := EStateM.Result.ok.inj hrest
        exact ⟨rfl, hmaker⟩
    | some b =>
        dsimp only at hrest
        rw [bind_of_ok _ (prepare_answer w₁ capacity)] at hrest
        split_ifs at hrest with hready
        · obtain ⟨hsome, -⟩ := EStateM.Result.ok.inj hrest
          cases hsome
        · obtain ⟨-, rfl⟩ := EStateM.Result.ok.inj hrest
          refine ⟨pools_drop _ b, (maker_drop _ b).trans ?_⟩
          change w₁.makerAfter capacity 1 = w.makerAfter capacity 1
          unfold makerAfter
          rw [hformat, hmaker]
  refine ⟨told, w', hmake, hanswer, htold, hasked.1, hasked.2, hmakes.cells, hmakes.lost rfl, ?_⟩
  rw [← hquiet.profile, ← hquiet.format, ← hquiet.held, ← hquiet.client]

/-- The first request that is not met is the last one. -/
theorem preallocate_of_not_supplies (hp : w.pool? p = some pool) (hd : pool.arena.detached = 0)
    (hclass : SizeClass.ofRequest? pool.minimum pool.minimum = some pool.minimum)
    (hs : w.supplies p pool.minimum = false) (n remaining : Nat) :
    ∃ told w', preallocate p n (remaining + 1) w = .ok (some n)
        (w'.emit (.noted p (.preallocationFailed n pool.config.cacheCount))) ∧
      Unmet p pool.heap pool.minimum told w w' := by
  obtain ⟨told, w', hmake, hunmet⟩ := make_of_not_supplies hp hclass hs
  refine ⟨told, w', ?_, hunmet⟩
  have hallocate : allocateWithin p pool.minimum w = .ok none w' := by
    rw [allocateWithin, bind_of_ok _ (reclaim_of_detached_eq_zero hp hd), bind_of_ok _ hmake]
    rfl
  rw [preallocate, bind_of_ok _ (getPool_of_some hp), bind_of_ok _ hallocate]
  rfl

theorem Unmet.pools_stocked {heap : Heap} {told : List Event}
    (h : Unmet w.pools.size heap minimum told (w.stocked c minimum keys arena) w') :
    ∃ allocated, w'.pools = w.pools.push
      ⟨c, minimum, c.heap.afterAll minimum (keys.length + 1), arena, allocated, 0, true⟩ := by
  have hmodify := modify_push_size w.pools
    ⟨c, minimum, c.heap.afterAll minimum keys.length, arena,
      .ofNat (keys.length * (Buffer.fresh w.format minimum).totalSize.toNat), 0, true⟩
    fun pool => { pool with heap := pool.heap.afterAll minimum 1 }
  dsimp only at hmodify
  rw [← Heap.afterAll_succ] at hmodify
  exact ⟨_, h.pools.trans hmodify⟩

/-- The buffers of a new pool, when a request was not met. -/
theorem Unmet.getElem?_stocked {heap : Heap} {told : List Event}
    (h : Unmet w.pools.size heap minimum told (w.stocked c minimum keys arena) w')
    (hb : b ∈ List.range' w.cells.size keys.length) :
    w'.cells[b]? = some (w.newCell c minimum b) := by
  have hlt := (List.mem_range'_1.1 hb).2
  rw [h.cells b (size_stocked.symm ▸ hlt), World.getElem?_stocked hb]

/-- The pool with what it had is closed in order. -/
theorem Unmet.closes {heap : Heap} {told : List Event} (hsound : arena.Sound)
    (hi : arena.Inventory [] (keys.zipIdx w.cells.size).reverse [])
    (h : Unmet w.pools.size heap minimum told (w.stocked c minimum keys arena) w') (note : Event) :
    ∃ allocated w'', close w.pools.size (w'.emit note) = .ok () w'' ∧
      Closes w.pools.size
        ⟨c, minimum, c.heap.afterAll minimum (keys.length + 1), arena, allocated, 0, true⟩
        (List.range' w.cells.size keys.length).reverse (w'.emit note) w'' := by
  obtain ⟨allocated, hpools⟩ := h.pools_stocked
  let pool : Pool :=
    ⟨c, minimum, c.heap.afterAll minimum (keys.length + 1), arena, allocated, 0, true⟩
  have hp : (w'.emit note).pool? w.pools.size = some pool := by
    change (w'.pools[w.pools.size]?).filter (·.live) = _
    rw [hpools, Array.getElem?_push_size]
    rfl
  have hbuffers : (([] ++ (keys.zipIdx w.cells.size).reverse ++ []).map Prod.snd) =
      (List.range' w.cells.size keys.length).reverse := by
    rw [List.nil_append, List.append_nil, List.map_reverse, List.zipIdx_map_snd]
  have ht : (w'.emit note).Tidy w.pools.size pool := by
    refine tidy_of_inventory hp hsound hi ?_ fun e he => ?_
    · rw [hbuffers, List.nodup_reverse]
      exact List.nodup_range'
    · have hb := List.mem_map_of_mem (f := Prod.snd) he
      rw [hbuffers, List.mem_reverse] at hb
      exact home?_of_getElem? (h.getElem?_stocked hb)
  obtain ⟨full, free, loose, w'', hi', -, hclose, hcloses⟩ := close_closes ht
  obtain rfl : full = [] := Except.ok.inj (hi'.entries_full.symm.trans hi.entries_full)
  obtain rfl := Except.ok.inj (hi'.entries_free.symm.trans hi.entries_free)
  obtain rfl : loose = [] := by
    rw [List.eq_nil_iff_forall_not_mem]
    exact fun e he => List.not_mem_nil ((hi.detached e.1 e.2).2 ((hi'.detached e.1 e.2).1 he))
  rw [hbuffers] at hcloses
  exact ⟨allocated, w'', hclose, hcloses⟩

/-- What is sent off then is what was put into the free lane. -/
theorem Unmet.sendOff {heap : Heap} {told : List Event}
    (h : Unmet w.pools.size heap minimum told (w.stocked c minimum keys arena) w')
    (hb : b ∈ List.range' w.cells.size keys.length) :
    w'.sendOff w.pools.size b = w.unshelving c minimum b := by
  have hcell := h.getElem?_stocked hb
  have htag : w'.tag? b = (w.newCell c minimum b).tag := by
    rw [World.tag?, hcell]
    rfl
  have hlast : (w.newCell c minimum b).refs = 1 := rfl
  rw [World.sendOff, buffer_of_getElem? hcell, refs_of_getElem? hcell, if_pos hlast, htag]
  rfl

theorem Unmet.undone {told : List Event} {allocated : UInt64} {w'' : World σ}
    (hi : arena.Inventory [] (keys.zipIdx w.cells.size).reverse []) (hd : arena.detached = 0)
    (h : Unmet w.pools.size (c.heap.afterAll minimum keys.length) minimum told
      (w.stocked c minimum keys arena) w')
    (hcloses : Closes w.pools.size
      ⟨c, minimum, c.heap.afterAll minimum (keys.length + 1), arena, allocated, 0, true⟩
      (List.range' w.cells.size keys.length).reverse
      (w'.emit (.noted w.pools.size (.preallocationFailed keys.length c.cacheCount))) w'') :
    Undone c minimum keys told w w'' := by
  obtain ⟨allocated₁, hpools⟩ := h.pools_stocked
  obtain ⟨allocated₂, hclosed⟩ := hcloses.closed
  set buffers := List.range' w.cells.size keys.length
  refine ⟨⟨arena, hi, h.answers⟩, ?events, ?maker, ⟨allocated₂, ?pools⟩, fun b hb => ?cells,
    fun b hb => ?lost, ?rest⟩
  case maker =>
    rw [hcloses.rest]
    change w'.maker = _
    rw [h.maker, makerAfter_stocked]
    split_ifs <;> rfl
  case events =>
    have hsent : buffers.reverse.flatMap (w'.sendOff w.pools.size) =
        buffers.reverse.flatMap (w.unshelving c minimum) :=
      List.flatMap_congr fun b hb => h.sendOff (List.mem_reverse.1 hb)
    refine hcloses.told.trans ?_
    change (buffers.reverse.flatMap (w'.sendOff w.pools.size)).reverse ++
      .noted _ (.closing buffers.reverse.length arena.detached) :: .noted _ _ :: w'.events = _
    rw [hsent, List.length_reverse, List.length_range', hd, h.events, stocked]
    simp [buffers]
  case pools =>
    apply Array.ext_getElem?
    intro q
    by_cases hq : q = w.pools.size
    · rw [hq, hclosed, Array.getElem?_push_size]
    · rw [hcloses.others q hq]
      change w'.pools[q]? = _
      rw [hpools, Array.getElem?_push, Array.getElem?_push, if_neg hq, if_neg hq]
  case cells =>
    have hnot : b ∉ buffers.reverse := fun hin =>
      Nat.not_lt.2 (List.mem_range'_1.1 (List.mem_reverse.1 hin)).1 hb
    have hlt : b < (w.stocked c minimum keys arena).cells.size :=
      Nat.lt_of_lt_of_le hb (size_stocked.symm ▸ Nat.le_add_right ..)
    simp only [hcloses.cells, hnot, if_false, Option.map_id']
    exact (h.cells b hlt).trans (getElem?_stocked_of_lt hb)
  case lost =>
    rw [hcloses.refs]
    change (if b ∈ buffers.reverse then w'.refs b - 1 else w'.refs b) = 0
    split_ifs with hin
    · rw [refs_of_getElem? (h.getElem?_stocked (List.mem_reverse.1 hin))]
      rfl
    · refine h.lost b (Nat.not_lt.1 fun hlt => hin ?_)
      rw [size_stocked] at hlt
      exact List.mem_reverse.2 (List.mem_range'_1.2 ⟨hb, hlt⟩)
  case rest =>
    rw [hcloses.rest, World.emit, h.rest]
    rfl

end Pool

end BufferPool
