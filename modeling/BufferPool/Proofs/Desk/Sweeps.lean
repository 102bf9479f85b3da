import BufferPool.Proofs.Desk.Cursors
import BufferPool.Proofs.Pool.Skipping

/-!
# Sweeps and the owners of buffers

A sweep leaves a buffer that another thread is writing to as it is, and leaves it where it is, so the
next sweep finds what the owner has written. This is so for all buffers but those that are given up
when they are drained: a one-shot buffer goes, whoever owns it.
-/

namespace BufferPool

open PoolM World

variable {σ : Type} {w w₀ : World σ} {b : BufferId} {q : PoolId} {key : Arena.Key} {t : Thread}

namespace Sweep

variable {lane : Option Lane}

theorem Undisturbed.owner (h : Undisturbed w₀ b q key lane w) :
    (w.buffer b).owner = (w₀.buffer b).owner :=
  (congrArg Buffer.owner h.bare :)

theorem Undisturbed.inOrder (h : Undisturbed w₀ b q key lane w) (ho : (w₀.buffer b).InOrder) :
    (w.buffer b).InOrder := by
  have htop : (w.buffer b).top = (w₀.buffer b).top := (congrArg Buffer.top h.bare :)
  have hpos : (w.buffer b).pos = (w₀.buffer b).pos := (congrArg Buffer.pos h.bare :)
  have hcapacity : (w.buffer b).capacity = (w₀.buffer b).capacity :=
    (congrArg Buffer.capacity h.bare :)
  exact ⟨by rw [htop, hpos]; exact ho.top_le, by rw [hpos, hcapacity]; exact ho.pos_le⟩

theorem Undisturbed.unflushed (h : Undisturbed w₀ b q key lane w) :
    (w.buffer b).unflushed = (w₀.buffer b).unflushed :=
  (congrArg Buffer.unflushed h.bare :)

/-- What the owner of an undisturbed buffer writes is found through the lane. -/
theorem Undisturbed.write {l : Lane} {bytes : List UInt8} {w' : World σ}
    (h : Undisturbed w₀ b q key (some l) w) (ho : (w₀.buffer b).InOrder)
    (hsize : b < w.cells.size) (hw : PoolM.write b t bytes w = .ok (.ok ()) w') (dir : Direction) :
    (w'.buffer b).unflushed = (w₀.buffer b).unflushed ++ bytes ∧
      ∃ handles, Pool.capture q l dir w' = .ok handles (w'.hold handles) ∧
        ⟨q, key, b⟩ ∈ handles := by
  obtain ⟨buffer, hwrite, rfl⟩ := write_eq_ok hw
  constructor
  · rw [buffer_modifyBuffer_self _ hsize, (h.inOrder ho).unflushed_write hwrite, h.unflushed]
  · obtain ⟨a, ha, -⟩ := Option.bind_eq_some_iff.1 h.sits.place
    obtain ⟨pool, hp, rfl⟩ := Option.map_eq_some_iff.1 ha
    obtain ⟨handles, hr, hm⟩ :=
      Pool.capture_members (w := w.modifyBuffer b fun _ => buffer) hp (h.sits.sound _ ha) l dir
    exact ⟨handles, hr, (hm.mem_iff _).2 ⟨rfl, h.sits.place⟩⟩

end Sweep

namespace Desk

open Sweep

/-- A sweep on thread `me` skips what another thread owns, unless it is a one-shot buffer. When it
comes to such a buffer, nothing happens but that the attempt may be counted by the buffer. After a
whole pass, however it ends, the buffer is as it was and where it was, and the pass has counted the
other members of its lane only. So what the owner writes next is found through the lane, behind what
was not flushed before. -/
theorem owned_buffers_skipped {profile : Profile} {format : Format} {maker : Supply} {s : Scene}
    (hs : (Scene.empty profile format maker).Reaches s) {me t : Thread} {b : BufferId}
    (hlasting : (s.world.buffer b).transient = false)
    (howner : (s.world.buffer b).owner = some t) (hother : t ≠ me) :
    (∀ (sweep : Sweep) (handle : Handle), handle.buffer = b →
      sweep.visit me handle s.world =
        .ok (true, sweep) (s.world.modifyBuffer b (·.countAttempt))) ∧
    (∀ q key lane, s.world.place? q key = some (b, lane) →
      Undisturbed s.world b q key lane (s.world.modifyBuffer b (·.countAttempt)) ∧
      ∀ (sweep : Sweep) route dir,
        Undisturbed s.world b q key lane ((sweep.pass me route dir).leaves s.world)) ∧
    (∀ (sweep sweep' : Sweep) route dir w', sweep.pass me route dir s.world = .ok sweep' w' →
      ∃ handles, s.world.Members sweep.pool route.target handles ∧
        sweep'.processed = sweep.processed +
          .ofNat (handles.countP fun h => !skips me (s.world.buffer h.buffer))) ∧
    (∀ q key lane w, Undisturbed s.world b q key (some lane) w →
      ∀ bytes w', PoolM.write b t bytes w = .ok (.ok ()) w' →
        (w'.buffer b).unflushed = (s.world.buffer b).unflushed ++ bytes ∧
        ∀ dir, ∃ handles, Pool.capture q lane dir w' = .ok handles (w'.hold handles) ∧
          ⟨q, key, b⟩ ∈ handles) := by
  have hkept : s.Kept := Scene.Reaches.kept (kept_empty profile format maker) hs
  obtain ⟨k, hk⟩ := hkept
  have hsize := lt_size_of_owner howner
  have hskips : skips me (s.world.buffer b) = true := skips_iff.2 ⟨hlasting, t, howner, hother⟩
  have horder := Scene.Kept.inOrder_buffer ⟨k, hk⟩ b
  refine ⟨?_, fun q key lane hplace => ?_, fun sweep sweep' route dir w' hr => ?_, ?_⟩
  · rintro sweep handle rfl
    exact visit_of_skips hskips
  · have hsits : s.world.Sits q key (b, lane) := ⟨hplace, hk.agrees.sound q⟩
    refine ⟨⟨?_, hsits.congr rfl⟩, fun sweep route dir => ?_⟩
    · rw [buffer_modifyBuffer_self _ hsize]
      rfl
    · exact undisturbed_pass hskips hsits (hk.agrees.sound sweep.pool) route dir
  · exact processed_pass (hk.agrees.sound sweep.pool) (fun a ha => hk.agrees.nodup_values ha) hr
  · intro q key lane w hw bytes w' hwrite
    have hsize' : b < w.cells.size := lt_size_of_owner (hw.owner.trans howner)
    exact ⟨(hw.write horder hsize' hwrite .forward).1,
      fun dir => (hw.write horder hsize' hwrite dir).2⟩

/-- A producer on thread 1 keeps its buffer while thread 0 sweeps the full lane. -/
theorem producer_keeps_buffer :
    let w := performAll 1 0 [.obtain .provideFull 100 none (some "a")]
      (performAll 0 0 [.build .standard false] (.empty .checked .plain (.within none) .empty))
    let sweep : Sweep := ⟨0, .full, 0, 0⟩
    ((w.buffer 0).transient = false ∧ (w.buffer 0).owner = some 1 ∧
      w.place? 0 ⟨0, 0⟩ = some (0, some .full)) ∧
    Undisturbed w 0 0 ⟨0, 0⟩ (some .full) ((sweep.pass 0 .full .forward).leaves w) := by
  intro w sweep
  have hrun : (Scene.empty .checked .plain (.within none)).Reaches ⟨w, []⟩ :=
    (reaches_performAll 0 0 _ _).trans (reaches_performAll 1 0 _ _)
  have hstate : (w.buffer 0).transient = false ∧ (w.buffer 0).owner = some 1 ∧
      w.place? 0 ⟨0, 0⟩ = some (0, some .full) := by decide +kernel
  obtain ⟨-, hundisturbed, -⟩ := owned_buffers_skipped hrun hstate.1 hstate.2.1
    (nofun : (1 : Thread) ≠ 0)
  exact ⟨hstate, (hundisturbed 0 ⟨0, 0⟩ (some .full) hstate.2.2).2 sweep .full .forward⟩

/-- A one-shot buffer does not wait for its owner. Thread 1 has published it and goes on writing, but
the sweep on thread 0 has counted it and taken it out of the lane, where nobody finds what thread 1
writes. -/
theorem owned_transient_released :
    let w := performAll 1 0 [.obtain .provideTransientFull 100 none (some "a")]
      (performAll 0 0 [.build .standard false] (.empty .checked .plain (.within none) .empty))
    let sweep : Sweep := ⟨0, .full, 0, 0⟩
    let w' := (sweep.pass 0 .full .forward).leaves w
    let w'' := (PoolM.write 0 1 [104, 105]).leaves w'
    ((w.buffer 0).owner = some 1 ∧ w.place? 0 ⟨0, 0⟩ = some (0, some .full)) ∧
    (sweep.pass 0 .full .forward).run' w = some sweep.counted ∧ w'.place? 0 ⟨0, 0⟩ = none ∧
    (w''.buffer 0).unflushed = [104, 105] ∧
    (Pool.capture 0 .full .forward).run' w'' = some [] := by
  decide +kernel

end Desk

end BufferPool
