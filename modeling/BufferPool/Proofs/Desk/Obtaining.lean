import BufferPool.Proofs.Desk.Abandonment
import BufferPool.Proofs.Desk.Completion
import BufferPool.Proofs.Pool.Obtaining

/-!
# Buffers in the full lane

At every scene, a thread that asks for a buffer in the full lane has it at once, or there is no memory for
one. It never has to wait. The buffer is its own, it has room for the request and for the smallest class,
and it stands before all that was in the full lane. The listener has been told of it once.
-/

namespace BufferPool.Desk

open PoolM World

/-- A request at any scene of a run that has a class ends with the first free buffer that suits, moved to
the full lane, or with a new one there, or there is no memory. Only what is abandoned may leave the pool.
What is obtained belongs to the thread, it has room for the request and for the smallest class, it is at
the head of the full lane, and it was published once. -/
theorem full_buffer_obtained {profile : Profile} {format : Format} {maker : Supply} {s : Scene}
    (hs : (Scene.empty profile format maker).Reaches s) {p : PoolId} {pool : Pool}
    (hp : s.world.pool? p = some pool) {size capacity : UInt64}
    (hclass : SizeClass.ofRequest? size pool.minimum = some capacity) (t : Thread) :
    ∃ gone found w', Pool.obtainFull p size t s.world = .ok found w' ∧
      s.world.FullObtained p pool size capacity t gone found w' ∧
      (∀ key b, (key, b) ∈ gone → s.world.Abandoned p key b) ∧
      w'.row p .full = found.toList.map (fun h => (h.key, h.buffer)) ++ s.world.row p .full ∧
      w'.announced p = s.world.announced p + found.toList.length ∧
      ∀ h, found = some h → h.pool = p ∧ (w'.buffer h.buffer).owner = some t ∧
        (w'.buffer h.buffer).retired = false ∧
        SizeClass.atLeast size pool.minimum ≤ (w'.buffer h.buffer).freeSize := by
  obtain ⟨k, hk⟩ := Scene.Reaches.kept (kept_empty profile format maker) hs
  obtain ⟨gone, found, w', hr, ho⟩ := Pool.obtainFull_obtains (hk.tidy hp) hclass t
  refine ⟨gone, found, w', hr, ho, fun key b hgone => ?_, ho.full, ho.announced_eq, ?_⟩
  · exact hk.abandoned_iff.2 (ho.abandoned hgone)
  · rintro h rfl
    exact ho.in_hand hclass

/-- There is one free buffer, and one more can be set up. The first request takes the free one to the full
lane, the next one gets a new one of its class, and nothing comes of the last one. -/
theorem free_then_new_then_none :
    let w := performAll 0 0 [.build { Config.standard with cacheCount := 1 } false]
      (.empty .checked .metered (.within (some 2)) .empty)
    let w₁ := performAll 0 0 [.obtain .obtainFull 100 none (some "a")] w
    let w₂ := performAll 0 0 [.obtain .obtainFull 5000 none (some "b")] w₁
    let Obtained (w : World Desk) (size capacity : UInt64) (found : Option Handle) : Prop :=
      ∃ pool gone w', w.FullObtained 0 pool size capacity 0 gone found w'
    Obtained w 100 4096 (some ⟨0, ⟨0, 0⟩, 0⟩) ∧ Obtained w₁ 5000 8192 (some ⟨0, ⟨1, 0⟩, 1⟩) ∧
      Obtained w₂ 100 4096 none := by
  intro w w₁ w₂ Obtained
  have hrun : (Scene.empty .checked .metered (.within (some 2))).Reaches ⟨w, []⟩ :=
    reaches_performAll 0 0 _ _
  have hrun₁ : Scene.Reaches ⟨w, []⟩ ⟨w₁, []⟩ := reaches_performAll 0 0 _ _
  have hrun₂ : Scene.Reaches ⟨w₁, []⟩ ⟨w₂, []⟩ := reaches_performAll 0 0 _ _
  have hone : (w.minimum? 0) = some 4096 ∧
      (Pool.obtainFull 0 100 0).run' w = some (some ⟨0, ⟨0, 0⟩, 0⟩) := by decide +kernel
  have htwo : (w₁.minimum? 0) = some 4096 ∧
      (Pool.obtainFull 0 5000 0).run' w₁ = some (some ⟨0, ⟨1, 0⟩, 1⟩) := by decide +kernel
  have hthree : (w₂.minimum? 0) = some 4096 ∧ (Pool.obtainFull 0 100 0).run' w₂ = some none := by
    decide +kernel
  have hobtained : ∀ {v : World Desk} {size capacity : UInt64} {found : Option Handle},
      (Scene.empty .checked .metered (.within (some 2))).Reaches ⟨v, []⟩ →
      v.minimum? 0 = some 4096 ∧ (Pool.obtainFull 0 size 0).run' v = some found →
      SizeClass.ofRequest? size 4096 = some capacity → Obtained v size capacity found := by
    intro v size capacity found hv hanswer hclass
    obtain ⟨pool, hp, hminimum⟩ := Option.map_eq_some_iff.1 hanswer.1
    obtain ⟨gone, found', w', hr, ho, -⟩ := full_buffer_obtained hv hp (hminimum.symm ▸ hclass) 0
    obtain rfl : found' = found := Option.some.inj ((run'_of_ok hr).symm.trans hanswer.2)
    exact ⟨pool, gone, w', ho⟩
  exact ⟨hobtained hrun hone (by decide +kernel),
    hobtained (hrun.trans hrun₁) htwo (by decide +kernel),
    hobtained ((hrun.trans hrun₁).trans hrun₂) hthree (by decide +kernel)⟩

end BufferPool.Desk
