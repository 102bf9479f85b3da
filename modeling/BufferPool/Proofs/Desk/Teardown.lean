import BufferPool.Proofs.Desk.Abandonment
import BufferPool.Proofs.Desk.Completion
import BufferPool.Proofs.Desk.Payloads
import BufferPool.Proofs.Pool.Closing

/-!
# Closing a pool at any scene

An arena gives out all that is registered in it, whatever was done to it before, each value once and in
an order that anybody can see beforehand. So a pool can be closed at any scene. Its listener hears of
each of its buffers once, in that order, and right after that the payload goes back, unless there is a
handle to the buffer. All handles go on being good for reading.
-/

namespace BufferPool

open PoolM World

namespace Desk

variable {s : Scene}

theorem Scene.mem_references_of_mem_handles {h : Handle} (hh : h ∈ s.world.handles) :
    h.buffer ∈ s.references :=
  Multiset.mem_add.2 (.inr (List.mem_map_of_mem hh))

/-- Whatever was done to an arena, it is drained without a fault: the full lane from the head, the free
lane from the head, and what is detached by slots, everything once. The empty arena is left. At any scene
a pool is closed without a fault, and its buffers are sent off in this order. The payload of a buffer
goes back right after the listener was told, if there is no handle to the buffer, and not otherwise. What
there is a handle to is as it was. -/
theorem pool_closed_in_order {profile : Profile} {format : Format} {maker : Supply} {s : Scene}
    (hs : (Scene.empty profile format maker).Reaches s) {p : PoolId} {pool : Pool}
    (hp : s.world.pool? p = some pool) :
    (∀ {α : Type} (ops : List (Arena.Op α)), ∃ full free loose,
      (Arena.after ops).Inventory full free loose ∧
      (Arena.after ops).drain = .ok ((full ++ free ++ loose).map (·.2), .empty)) ∧
    ∃ full free loose w', pool.arena.Inventory full free loose ∧
      pool.arena.drain = .ok ((full ++ free ++ loose).map (·.2), .empty) ∧
      ((full ++ free ++ loose).map (·.2)).Nodup ∧
      Pool.close p s.world = .ok () w' ∧
      Closes p pool ((full ++ free ++ loose).map (·.2)) s.world w' ∧
      (∀ b ∈ (full ++ free ++ loose).map (·.2),
        s.world.refs b = 1 ↔ ∀ h ∈ s.world.handles, h.buffer ≠ b) ∧
      ∀ h ∈ s.world.handles, w'.buffer h.buffer = s.world.buffer h.buffer ∧
        w'.refs h.buffer ≠ 0 ∧ ∀ q tag capacity, .freed q h.buffer tag capacity ∉ w'.events := by
  obtain ⟨k, hk⟩ := Scene.Reaches.kept (kept_empty profile format maker) hs
  have ht := hk.tidy hp
  refine ⟨fun ops => ?_, ?_⟩
  · obtain ⟨wiring, hw⟩ := Arena.after_sound ops
    exact hw.drain_inventory
  obtain ⟨full, free, loose, w', hinventory, hdrain, hclose, hcloses⟩ := Pool.close_closes ht
  have hplaced : ∀ b ∈ (full ++ free ++ loose).map (·.2),
      ∃ key lane, s.world.place? p key = some (b, lane) := by
    intro b hb
    obtain ⟨⟨key, b⟩, he, rfl⟩ := List.mem_map.1 hb
    have hget := (hinventory.complete key b).1 he
    rw [Arena.get?_eq_place?, ← place?_of_pool? hp] at hget
    obtain ⟨⟨b', lane⟩, hplace, rfl⟩ := Option.map_eq_some_iff.1 hget
    exact ⟨key, lane, hplace⟩
  have hlast : ∀ b ∈ (full ++ free ++ loose).map (·.2),
      s.world.refs b = 1 ↔ ∀ h ∈ s.world.handles, h.buffer ≠ b := by
    intro b hb
    obtain ⟨key, lane, hplace⟩ := hplaced b hb
    exact hk.refs_eq_one_iff hplace
  refine ⟨full, free, loose, w', hinventory, hdrain, hinventory.perm_values.nodup_iff.2 ht.nodup,
    hclose, hcloses, hlast, fun h hh => ?_⟩
  have hin := Scene.mem_references_of_mem_handles hh
  have hrefs : s.world.refs h.buffer ≠ 0 := by
    rw [hk.refs_eq]
    exact Multiset.count_ne_zero.2 hin
  have hmore : h.buffer ∈ (full ++ free ++ loose).map (·.2) → s.world.refs h.buffer ≠ 1 :=
    fun hb hone => (hlast _ hb).1 hone h hh rfl
  refine ⟨hcloses.buffer h.buffer, ?refs, fun q tag capacity hfreed => ?freed⟩
  case refs =>
    rw [hcloses.refs]
    split_ifs with hb
    · have := hmore hb
      omega
    · exact hrefs
  case freed =>
    rcases hcloses.freed hfreed with ⟨hb, hone⟩ | hold
    · exact hmore hb hone
    · obtain ⟨c, hc, -⟩ := hk.agrees.exists_of_mem (hk.references ▸ hin)
      exact (hk.fate hc).not_freed hin q tag capacity hold

/-- A pool with four buffers is closed: one in the full lane, two in the free lane, a detached one. There
are handles to the first of the free ones and to the detached one, whose payloads do not go back. -/
theorem four_buffers_in_order :
    let w := performAll 0 0 [.build { Config.standard with cacheCount := 2 } false,
        .pick .free .forward 0 (some "a"), .obtain .allocate 100 none (some "b"),
        .obtain .allocate 100 none (some "c"), .place (.named "c") (.insert .full),
        .discard (.named "c")] (.empty .checked .plain (.within none) .empty)
    ∃ w', Pool.close 0 w = .ok () w' ∧
      w'.events = [.noted 0 (.closing 4 1),
        .deallocated 0 3 4168, .noted 0 (.deallocated 4168), .freed 0 3 none 4096,
        .deallocated 0 1 4168, .noted 0 (.deallocated 4168),
        .deallocated 0 0 4168, .noted 0 (.deallocated 4168), .freed 0 0 none 4096,
        .deallocated 0 2 4168, .noted 0 (.deallocated 4168)].reverse ++ w.events ∧
      w'.buffer 1 = w.buffer 1 ∧ w'.buffer 2 = w.buffer 2 := by
  intro w
  have hrun : (Scene.empty .checked .plain (.within none)).Reaches ⟨w, []⟩ :=
    reaches_performAll 0 0 _ _
  have hdrains : (w.pool? 0).map (fun pool =>
      (pool.arena.drain.toOption.map (·.1), pool.arena.detached)) =
      some (some [3, 1, 0, 2], 1) := by decide +kernel
  have hsent : [3, 1, 0, 2].flatMap (w.sendOff 0) = [
      .deallocated 0 3 4168, .noted 0 (.deallocated 4168), .freed 0 3 none 4096,
      .deallocated 0 1 4168, .noted 0 (.deallocated 4168),
      .deallocated 0 0 4168, .noted 0 (.deallocated 4168), .freed 0 0 none 4096,
      .deallocated 0 2 4168, .noted 0 (.deallocated 4168)] := by decide +kernel
  have hhandles : w.handles.map (·.buffer) = [1, 2] := by decide +kernel
  clear_value w
  obtain ⟨pool, hp, hpool⟩ := Option.map_eq_some_iff.1 hdrains
  obtain ⟨hbuffers, hdetached⟩ := Prod.mk.inj hpool
  obtain ⟨-, full, free, loose, w', -, hdrain, -, hclose, hcloses, -, hkept⟩ :=
    pool_closed_in_order hrun hp
  rw [hdrain] at hbuffers
  have hall : (full ++ free ++ loose).map (·.2) = [3, 1, 0, 2] := Option.some.inj hbuffers
  have hsame : ∀ b ∈ [1, 2], w'.buffer b = w.buffer b := by
    intro b hb
    obtain ⟨h, hh, rfl⟩ := List.mem_map.1 (hhandles ▸ hb)
    exact (hkept h hh).1
  refine ⟨w', hclose, ?_, hsame 1 (by simp), hsame 2 (by simp)⟩
  rw [hcloses.told, hall, hsent, hdetached]
  rfl

end Desk

end BufferPool
