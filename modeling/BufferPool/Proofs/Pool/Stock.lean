import BufferPool.Proofs.Arena.Catalog
import BufferPool.Proofs.Pool.Outcome
import BufferPool.Proofs.World.Cells

/-!
# Operations of a pool and its catalog

What the operations of a pool do when their requests make sense, in terms of the catalog of its arena.
Each of them answers, and it is said which catalog and which cells it leaves behind. The callers of
these operations need no slots and no links.
-/

namespace BufferPool

open Arena (Catalog)
open PoolM

variable {σ α : Type} {w : World σ} {p : PoolId} {minimum : UInt64} {c : Catalog BufferId}

namespace World

/-- The pool is set up, and this is its catalog. -/
structure Stocks (w : World σ) (p : PoolId) (minimum : UInt64) (c : Catalog BufferId) : Prop where
  minimum : w.minimum? p = some minimum
  catalog : ∃ a wiring, w.arena? p = some a ∧ a.Wired wiring ∧ a.catalog wiring = c

theorem Stocks.pool (h : w.Stocks p minimum c) :
    ∃ pool wiring, w.pool? p = some pool ∧ pool.minimum = minimum ∧ pool.arena.Wired wiring ∧
      pool.arena.catalog wiring = c := by
  obtain ⟨a, wiring, ha, hw, hc⟩ := h.catalog
  obtain ⟨pool, hp, rfl⟩ := Option.map_eq_some_iff.1 ha
  have hmin := h.minimum
  rw [minimum?_of_pool? hp, Option.some.injEq] at hmin
  exact ⟨pool, wiring, hp, hmin, hw, hc⟩

theorem Stocks.quiet {w' : World σ} (h : w.Stocks p minimum c) (hq : Quiet w w') :
    w'.Stocks p minimum c :=
  ⟨(hq.minimum p).trans h.minimum, by rw [hq.arena p]; exact h.catalog⟩

theorem Stocks.mem_order (hs : w.Stocks p minimum c) {lane : Lane} {key : Arena.Key} :
    key ∈ c.order lane ↔ ∃ b, c.place key = some (b, some lane) := by
  obtain ⟨a, wiring, -, hw, rfl⟩ := hs.catalog
  exact hw.mem_order lane key

theorem Stocks.nodup_order (hs : w.Stocks p minimum c) (lane : Lane) : (c.order lane).Nodup := by
  obtain ⟨a, wiring, -, hw, rfl⟩ := hs.catalog
  exact hw.nodup_order lane

/-- What running operations hold makes no difference. -/
theorem Stocks.hold (h : w.Stocks p minimum c) (held : List (List Handle)) :
    { w with held := held }.Stocks p minimum c :=
  ⟨h.minimum, h.catalog⟩

theorem stocks_setArena {pool : Pool} {arena : Arena BufferId} {wiring : Arena.Wiring}
    (hp : w.pool? p = some pool) (hw : arena.Wired wiring) :
    (w.setArena p arena).Stocks p pool.minimum (arena.catalog wiring) := by
  constructor
  · rw [minimum?, pool?_setArena, if_pos rfl, hp]
    rfl
  · refine ⟨arena, wiring, ?_, hw, rfl⟩
    rw [arena?_setArena arena hp, if_pos rfl]

/-- Dropping a reference only changes its count. -/
theorem cells_drop (w : World σ) (b : BufferId) :
    (w.drop b).cells = w.cells.modify b fun c => { c with refs := c.refs - 1 } := by
  apply Array.ext_getElem?
  intro i
  rw [getElem?_drop, Array.getElem?_modify]
  by_cases hi : i = b
  · rw [if_pos hi, if_pos hi.symm]
  · rw [if_neg hi, if_neg (Ne.symm hi)]

end World

theorem stocks_prepend (hs : w.Stocks p minimum c) {key : Arena.Key} {b : BufferId} (lane : Lane)
    (hp : c.place key = some (b, none)) :
    ∃ arena, onArena p (fun arena => (arena.prepend lane key).map ((), ·)) w =
        .ok () (w.setArena p arena) ∧
      (w.setArena p arena).Stocks p minimum (c.enter lane key b) := by
  obtain ⟨pool, wiring, hpool, rfl, hw, rfl⟩ := hs.pool
  have hplace : pool.arena.place? key = some (b, none) := hp
  rcases Arena.prepend_cases hw lane key with ⟨hn, -⟩ | ⟨_, _, hl, -⟩ |
    ⟨value, arena, f, hv, he, hr, hm, hw'⟩
  · rw [hn] at hplace
    exact nomatch hplace
  · rw [hl] at hplace
    exact nomatch (Prod.mk.inj (Option.some.inj hplace)).2
  · refine ⟨arena, onArena_of_ok hpool (by rw [he]; rfl), ?_⟩
    have hstocks := World.stocks_setArena hpool hw'
    rwa [Arena.prepend_catalog_eq hr hm hplace rfl] at hstocks

theorem stocks_remove (hs : w.Stocks p minimum c) {key : Arena.Key} {b : BufferId} {lane : Lane}
    (hp : c.place key = some (b, some lane)) :
    ∃ arena, onArena p (fun arena => (arena.remove lane key).map ((), ·)) w =
        .ok () (w.setArena p arena) ∧
      (w.setArena p arena).Stocks p minimum (c.leave lane key b) := by
  obtain ⟨pool, wiring, hpool, rfl, hw, rfl⟩ := hs.pool
  have hplace : pool.arena.place? key = some (b, some lane) := hp
  rcases Arena.remove_cases hw lane key with ⟨hn, -⟩ | ⟨_, actual, hl, hne, -⟩ |
    ⟨value, arena, f, hv, he, hr, hm, hw'⟩
  · rw [hn] at hplace
    exact nomatch hplace
  · rw [hl] at hplace
    exact absurd (Prod.mk.inj (Option.some.inj hplace)).2 hne
  · refine ⟨arena, onArena_of_ok hpool (by rw [he]; rfl), ?_⟩
    have hstocks := World.stocks_setArena hpool hw'
    rwa [Arena.remove_catalog_eq hr hm hw hplace rfl] at hstocks

theorem stocks_unregister (hs : w.Stocks p minimum c) {key : Arena.Key} {b : BufferId}
    (hp : c.place key = some (b, none)) :
    ∃ arena, onArena p (·.unregister key) w = .ok b (w.setArena p arena) ∧
      (w.setArena p arena).Stocks p minimum (c.delete [key]) := by
  obtain ⟨pool, wiring, hpool, rfl, hw, rfl⟩ := hs.pool
  have hplace : pool.arena.place? key = some (b, none) := hp
  rcases Arena.unregister_cases hw key with ⟨hn, -⟩ | ⟨_, lane, hl, -⟩ |
    ⟨value, arena, hv, he, -, hc, hw'⟩
  · rw [hn] at hplace
    exact nomatch hplace
  · rw [hl] at hplace
    exact nomatch (Prod.mk.inj (Option.some.inj hplace)).2
  · rw [hv] at hplace
    obtain rfl := (Prod.mk.inj (Option.some.inj hplace)).1
    refine ⟨arena, onArena_of_ok hpool he, ?_⟩
    have hstocks := World.stocks_setArena hpool hw'
    have hkeys : ∀ other ∈ [key], ∃ value, pool.arena.place? other = some (value, none) := by
      simp only [List.mem_singleton, forall_eq]
      exact ⟨value, hv⟩
    rwa [hc.catalog_eq hw hkeys] at hstocks

theorem stocks_reclaim (hs : w.Stocks p minimum c) (abandoned : BufferId → Bool) :
    ∃ keys arena, c.Gathered abandoned keys ∧
      onArena p (fun arena => arena.reclaim abandoned) w =
        .ok (c.valuesOf keys) (w.setArena p arena) ∧
      (w.setArena p arena).Stocks p minimum (c.delete keys) := by
  obtain ⟨pool, wiring, hpool, rfl, hw, rfl⟩ := hs.pool
  obtain ⟨arena, he, hc, hw'⟩ := Arena.reclaim_wired hw abandoned
  have hkeys : ∀ key ∈ pool.arena.abandonedKeys abandoned,
      ∃ value, pool.arena.place? key = some (value, none) := by
    intro key hk
    obtain ⟨value, hp, -⟩ := Arena.mem_abandonedKeys.1 hk
    exact ⟨value, hp⟩
  have hvalues : (pool.arena.abandonedKeys abandoned).filterMap pool.arena.get? =
      (pool.arena.catalog wiring).valuesOf (pool.arena.abandonedKeys abandoned) := by
    rw [funext (Arena.get?_eq_place? pool.arena)]
    rfl
  rw [hvalues] at he
  refine ⟨_, arena, Arena.gathered_abandonedKeys _ _ _, onArena_of_ok hpool he, ?_⟩
  have hstocks := World.stocks_setArena hpool hw'
  rwa [hc.catalog_eq hw hkeys] at hstocks

theorem stocks_register (hs : w.Stocks p minimum c) (b : BufferId) :
    ∃ key arena, c.place key = none ∧ onArena p (·.register b) w = .ok key (w.setArena p arena) ∧
      (w.setArena p arena).Stocks p minimum (c.add key b) := by
  obtain ⟨pool, wiring, hpool, rfl, hw, rfl⟩ := hs.pool
  obtain ⟨key, arena, he, hr, -, -, hw'⟩ := Arena.register_wired hw b
  refine ⟨key, arena, Arena.place?_eq_none_of_registered hr, onArena_of_ok hpool he, ?_⟩
  have hstocks := World.stocks_setArena hpool hw'
  rwa [hr.catalog_eq hw] at hstocks

/-- What a look at a lane shows: its members, each once. -/
theorem stocks_entries (hs : w.Stocks p minimum c) (lane : Lane) (dir : Direction) :
    ∃ entries, readArena p (·.entries lane dir) w = .ok entries w ∧
      (entries.map (·.1)).Nodup ∧
      ∀ key b, (key, b) ∈ entries ↔ c.place key = some (b, some lane) := by
  obtain ⟨pool, wiring, hpool, rfl, hw, rfl⟩ := hs.pool
  let members := (wiring.lane lane).filterMap pool.arena.entryAt?
  have hmem : ∀ key b, (key, b) ∈ members ↔ pool.arena.place? key = some (b, some lane) := by
    intro key b
    constructor
    · exact Arena.place?_of_mem_entries (hw.lanes lane)
    · intro hp
      obtain ⟨⟨k, b'⟩, he, rfl⟩ := List.mem_map.1 ((hw.mem_order lane key).2 ⟨b, hp⟩)
      have hp' := Arena.place?_of_mem_entries (hw.lanes lane) he
      rw [hp] at hp'
      rwa [(Prod.mk.inj (Option.some.inj hp')).1]
  cases dir with
  | forward =>
      exact ⟨members, readArena_of_ok hpool (hw.lanes lane).entries_forward, hw.nodup_order lane,
        hmem⟩
  | backward =>
      refine ⟨members.reverse, readArena_of_ok hpool (hw.lanes lane).entries_backward, ?_, ?_⟩
      · rw [List.map_reverse, List.nodup_reverse]
        exact hw.nodup_order lane
      · intro key b
        rw [List.mem_reverse]
        exact hmem key b

namespace Pool

theorem deallocate_ok (hs : w.Stocks p minimum c) {h : Handle} {b : BufferId} (hh : h.pool = p)
    (hp : c.place h.key = some (b, none)) :
    ∃ w', deallocate p h w = .ok () w' ∧ w'.Stocks p minimum (c.delete [h.key]) ∧
      w'.held = w.held ∧ w'.cells = ((w.drop h.buffer).drop b).cells := by
  obtain ⟨arena, hon, hs₁⟩ := stocks_unregister hs hp
  let w₁ := w.setArena p arena
  have hout : owning h.buffer (do
      checkOwner p h
      onArena p (·.unregister h.key)) w = .ok b w₁ :=
    owning_of_ok ((bind_of_ok _ (checkOwner_of_eq hh)).trans hon)
  obtain ⟨w₂, hretire, hcells⟩ := retire_ok p b (w₁.drop h.buffer)
  have hq := quiet_retire p b (w₁.drop h.buffer)
  rw [leaves_of_ok hretire] at hq
  have hq' := ((World.quiet_drop w₁ h.buffer).trans hq).trans (World.quiet_drop w₂ b)
  refine ⟨w₂.drop b, ?_, hs₁.quiet hq', hq'.held, ?_⟩
  · have hdrop : (PoolM.drop h.buffer : PoolM σ Unit) w₁ = .ok () (w₁.drop h.buffer) := rfl
    unfold deallocate
    rw [bind_of_ok _ hout, bind_of_ok _ hdrop, bind_of_ok _ hretire]
    rfl
  · rw [World.cells_drop, hcells, World.cells_drop, World.cells_drop, World.cells_drop]
    rfl

/-- Retiring buffers leaves the references to other buffers. -/
theorem retireAll_cells (p : PoolId) (buffers : List BufferId) (w : World σ) :
    ∃ w', retireAll p buffers w = .ok () w' ∧ World.Quiet w w' ∧
      w'.cells.size = w.cells.size ∧ (∀ b, w'.buffer b = w.buffer b) ∧
      ∀ b, b ∉ buffers → w'.refs b = w.refs b := by
  induction buffers generalizing w with
  | nil => exact ⟨w, rfl, .refl w, rfl, fun _ => rfl, fun _ _ => rfl⟩
  | cons b rest ih =>
      obtain ⟨w₁, hr, hcells⟩ := retire_ok p b w
      have hq₁ := quiet_retire p b w
      rw [leaves_of_ok hr] at hq₁
      obtain ⟨w₂, hrest, hq₂, hsize, hbuffer, hrefs⟩ := ih (w₁.drop b)
      refine ⟨w₂, ?_, (hq₁.trans (World.quiet_drop w₁ b)).trans hq₂, ?_, fun b' => ?_,
        fun b' hb' => ?_⟩
      · unfold retireAll
        rw [bind_of_ok _ hr]
        exact hrest
      · rw [hsize, World.size_drop, hcells]
      · rw [hbuffer, World.buffer_drop, World.buffer_of_cells hcells]
      · rw [List.mem_cons, not_or] at hb'
        rw [hrefs b' hb'.2, World.refs_drop_of_ne _ hb'.1, World.refs_of_cells hcells]

theorem reclaim_ok (hs : w.Stocks p minimum c) :
    ∃ keys w', reclaim p w = .ok () w' ∧ c.Gathered (fun b => w.refs b == 1) keys ∧
      w'.Stocks p minimum (c.delete keys) ∧ w'.held = w.held ∧
      w'.cells.size = w.cells.size ∧ (∀ b, w'.buffer b = w.buffer b) ∧
      ∀ b, b ∉ c.valuesOf keys → w'.refs b = w.refs b := by
  obtain ⟨keys, arena, hkeys, hon, hs₁⟩ := stocks_reclaim hs fun b => w.refs b == 1
  have hget : (MonadState.get : PoolM σ (World σ)) w = .ok w w := rfl
  let w₁ := w.setArena p arena
  by_cases hempty : (c.valuesOf keys).isEmpty = true
  · refine ⟨keys, w₁, ?_, hkeys, hs₁, rfl, rfl, fun _ => rfl, fun _ _ => rfl⟩
    unfold reclaim
    rw [bind_of_ok _ hget, bind_of_ok _ hon, hempty]
    rfl
  · let w₂ := w₁.emit (.noted p (.reclaiming (c.valuesOf keys).length))
    have hnote : note p (.reclaiming (c.valuesOf keys).length) w₁ = .ok () w₂ := rfl
    have hq₂ := quiet_note p (.reclaiming (c.valuesOf keys).length) w₁
    rw [leaves_of_ok hnote] at hq₂
    obtain ⟨w₃, hretire, hq₃, hsize, hbuffer, hrefs⟩ := retireAll_cells p (c.valuesOf keys) w₂
    refine ⟨keys, w₃, ?_, hkeys, hs₁.quiet (hq₂.trans hq₃), hq₃.held, hsize, hbuffer, hrefs⟩
    unfold reclaim
    rw [bind_of_ok _ hget, bind_of_ok _ hon, if_pos (by simpa using hempty), bind_of_ok _ hnote]
    exact hretire

theorem enroll_ok (hs : w.Stocks p minimum c) (b : BufferId) :
    ∃ key w', enroll p b w = .ok ⟨p, key, b⟩ w' ∧ c.place key = none ∧
      w'.Stocks p minimum (c.add key b) ∧ w'.held = w.held ∧ w'.cells = (w.retain b).cells := by
  obtain ⟨key, arena, hnone, hon, hs₁⟩ := stocks_register hs b
  have hq := World.quiet_retain (w.setArena p arena) b
  refine ⟨key, _, ?_, hnone, hs₁.quiet hq, hq.held, rfl⟩
  unfold enroll
  rw [bind_of_ok _ (owning_of_ok hon)]
  rfl

theorem insert_ok (hs : w.Stocks p minimum c) {h : Handle} {b : BufferId} (hh : h.pool = p)
    (lane : Lane) (hp : c.place h.key = some (b, none)) :
    ∃ w', insert p lane h w = .ok () w' ∧ w'.Stocks p minimum (c.enter lane h.key b) ∧
      w'.held = w.held ∧ w'.cells = w.cells := by
  obtain ⟨arena, hon, hs₁⟩ := stocks_prepend hs lane hp
  let w₁ := w.setArena p arena
  have hrest : ∃ w', (do
      if lane = .full then emit (.published p h.buffer h.key (← getBuffer h.buffer).totalSize)
      emit (.inserted p lane h.key) : PoolM σ Unit) w₁ = .ok () w' ∧ World.Quiet w₁ w' ∧
        w'.cells = w₁.cells := by
    cases lane with
    | free => exact ⟨_, rfl, quiet_emit (.inserted p .free h.key) w₁, rfl⟩
    | full =>
        have hq : Quiet (σ := σ) (do
            emit (.published p h.buffer h.key (← getBuffer h.buffer).totalSize)
            emit (.inserted p .full h.key)) :=
          (quiet_getBuffer _).bind fun _ => (quiet_emit _).bind fun _ => quiet_emit _
        exact ⟨_, rfl, hq w₁, rfl⟩
  obtain ⟨w₂, hnote, hq, hcells⟩ := hrest
  refine ⟨w₂, ?_, hs₁.quiet hq, hq.held, hcells⟩
  unfold insert
  rw [bind_of_ok _ (checkOwner_of_eq hh), bind_of_ok _ hon]
  exact hnote

theorem remove_ok (hs : w.Stocks p minimum c) {h : Handle} {b : BufferId} (hh : h.pool = p)
    {lane : Lane} (hp : c.place h.key = some (b, some lane)) :
    ∃ w', remove p lane h w = .ok () w' ∧ w'.Stocks p minimum (c.leave lane h.key b) ∧
      w'.held = w.held ∧ w'.cells = w.cells := by
  obtain ⟨arena, hon, hs₁⟩ := stocks_remove hs hp
  refine ⟨_, ?_, hs₁, rfl, rfl⟩
  unfold remove
  rw [bind_of_ok _ (checkOwner_of_eq hh)]
  exact hon

theorem move_ok (hs : w.Stocks p minimum c) {h : Handle} {b : BufferId} (hh : h.pool = p)
    {source : Lane} (hp : c.place h.key = some (b, some source)) :
    ∃ w', move p source h w = .ok () w' ∧
      w'.Stocks p minimum ((c.leave source h.key b).enter source.other h.key b) ∧
      w'.held = w.held ∧ w'.cells = w.cells := by
  obtain ⟨w₁, hremove, hs₁, hheld₁, hcells₁⟩ := remove_ok hs hh hp
  have hp₁ : (c.leave source h.key b).place h.key = some (b, none) := Function.update_self ..
  obtain ⟨w₂, hinsert, hs₂, hheld₂, hcells₂⟩ := insert_ok hs₁ hh source.other hp₁
  refine ⟨w₂, ?_, hs₂, hheld₂.trans hheld₁, hcells₂.trans hcells₁⟩
  unfold move
  rw [bind_of_ok _ hremove]
  exact hinsert

theorem capture_ok (hs : w.Stocks p minimum c) (lane : Lane) (dir : Direction) :
    ∃ handles w', capture p lane dir w = .ok handles w' ∧ w' = w.hold handles ∧ handles.Nodup ∧
      ∀ h, h ∈ handles ↔ h.pool = p ∧ c.place h.key = some (h.buffer, some lane) := by
  obtain ⟨entries, hread, hnodup, hmem⟩ := stocks_entries hs lane dir
  let handles : List Handle := entries.map fun e => ⟨p, e.1, e.2⟩
  refine ⟨handles, w.hold handles, ?_, rfl, ?_, fun h => ?_⟩
  · unfold capture
    rw [bind_of_ok _ hread]
    rfl
  · apply List.Nodup.of_map (·.key)
    have hkeys : handles.map (·.key) = entries.map (·.1) := by
      rw [List.map_map]
      rfl
    rw [hkeys]
    exact hnodup
  · rw [List.mem_map]
    constructor
    · rintro ⟨e, he, rfl⟩
      exact ⟨rfl, (hmem e.1 e.2).1 he⟩
    · obtain ⟨q, key, b⟩ := h
      rintro ⟨rfl, hplace⟩
      exact ⟨(key, b), (hmem key b).2 hplace, rfl⟩

end Pool

end BufferPool
