import BufferPool.Proofs.Desk.StepLabels
import BufferPool.Proofs.Pool.Completion

/-!
# Nothing is left half done

At every scene an operation that takes a buffer out of one lane and puts it into another one does both or
neither, and so does an operation that looks for a free buffer and takes it. What is refused leaves no
buffer acquired and none detached. It makes no difference whether the handle is a good one: its buffer may
be in either lane or in none, it may have left the pool, and the handle may be one of another pool.
-/

namespace BufferPool.Desk

open PoolM World

/-- The pools of a scene are in order. -/
theorem Orderly.tidy {s : Scene} {k : Books Desk} (h : Orderly s.made k s.world) {p : PoolId}
    {pool : Pool} (hp : s.world.pool? p = some pool) : s.world.Tidy p pool :=
  ⟨hp, h.agrees.sound p _ (arena?_of_pool? hp), h.agrees.nodup_values (arena?_of_pool? hp),
    fun _ b _ hplace => h.agrees.registered p b (mem_registered_of_place? hplace)⟩

/-- At every scene of a run, a move succeeds, or it is refused and the world is as it was; and an
operation that takes a free buffer succeeds, or it finds none and everything stays in place, or it is
refused and the world is as it was. What was taken out of a lane can be put into any lane, and what was
found can be taken out of the free lane and moved to the full one. -/
theorem nothing_left_half_done {profile : Profile} {format : Format} {maker : Supply} {s : Scene}
    (hs : (Scene.empty profile format maker).Reaches s) (p : PoolId) :
    (∀ source h,
      (∃ b w', Pool.move p source h s.world = .ok () w' ∧
        Shifts p h b source (some source.other) s.world w') ∨
      ∃ fault, s.world.Hinders p source h fault ∧
        Pool.move p source h s.world = .error fault s.world) ∧
    (∀ size t, Pool.Takes p size t (some .full) s.world (Pool.takeToFull p size t s.world)) ∧
    (∀ size t, Pool.Takes p size t none s.world (Pool.takeDetached p size t s.world)) ∧
    (∀ source h w₁, Pool.remove p source h s.world = .ok () w₁ →
      ∀ lane, ∃ w', Pool.insert p lane h w₁ = .ok () w') ∧
    ∀ size t h w₁, Pool.find p size t s.world = .ok (some h) w₁ →
      (∃ w', Pool.remove p .free h w₁ = .ok () w' ∧ Shifts p h h.buffer .free none w₁ w') ∧
      ∃ w', Pool.move p .free h w₁ = .ok () w' ∧ Shifts p h h.buffer .free (some .full) w₁ w' := by
  obtain ⟨k, hk⟩ := Scene.Reaches.kept (kept_empty profile format maker) hs
  have hsound : s.world.Sound := hk.agrees.sound
  have hall : ∀ pool, s.world.pool? p = some pool → s.world.Tidy p pool := fun _ hp => hk.tidy hp
  refine ⟨fun source h => Pool.move_or_hinders hsound p source h,
    fun size t => Pool.takes_takeToFull hall size t, fun size t => Pool.takes_takeDetached hall size t,
    fun source h w₁ hr lane => Pool.insert_of_remove hsound hr lane, fun size t h w₁ hfind => ?_⟩
  obtain ⟨pool, -, hp, -⟩ := Pool.find_mem hfind
  obtain ⟨c, hstocks⟩ := (hall pool hp).stocks
  obtain ⟨found, w₂, hfind', hl⟩ := Pool.find_tidy (hall pool hp) size t
  obtain ⟨rfl, rfl⟩ := EStateM.Result.ok.inj (hfind.symm.trans hfind')
  obtain ⟨hh, hplace⟩ := Pool.place_of_found hstocks hl
  obtain ⟨w', hremove, hdetached, -⟩ := Pool.remove_shifts (hl.stocks hstocks) hh hplace
  obtain ⟨w'', hmove, hshifts, -⟩ := Pool.move_shifts (hl.stocks hstocks) hh hplace
  exact ⟨⟨w', hremove, hdetached⟩, w'', hmove, hshifts⟩

/-- There is one free buffer. It is not in the full lane, so it cannot be moved from there. Then it is
taken to the full lane, and another such request finds nothing. -/
theorem free_buffer_moves_once :
    let w := performAll 0 0 [.build { Config.standard with cacheCount := 1 } false]
      (.empty .checked .plain (.within none) .empty)
    let h : Handle := ⟨0, ⟨0, 0⟩, 0⟩
    let w' := performAll 0 0 [.obtain .takeToFull 100 none (some "a")] w
    (∃ fault, w.Hinders 0 .full h fault ∧ Pool.move 0 .full h w = .error fault w) ∧
      (∃ b w₁, Pool.move 0 .free h w = .ok () w₁ ∧ Shifts 0 h b .free (some .full) w w₁) ∧
      ∃ w₂, Pool.takeDetached 0 100 0 w' = .ok none w₂ ∧ Abstains w' w₂ := by
  intro w h w'
  have hrun : (Scene.empty .checked .plain (.within none)).Reaches ⟨w, []⟩ :=
    reaches_performAll 0 0 _ _
  have hmore : Scene.Reaches ⟨w, []⟩ ⟨w', []⟩ := reaches_performAll 0 0 _ _
  have hwrong : (Pool.move 0 .full h).run' w = none := by decide +kernel
  have hright : (Pool.move 0 .free h).run' w = some () := by decide +kernel
  have hnone : (Pool.takeDetached 0 100 0).run' w' = some none := by decide +kernel
  clear_value w' w
  obtain ⟨hmoves, -⟩ := nothing_left_half_done hrun 0
  obtain ⟨-, -, htakes, -⟩ := nothing_left_half_done (hrun.trans hmore) 0
  refine ⟨?_, ?_, ?_⟩
  · rcases hmoves .full h with ⟨b, w₁, hr, -⟩ | hhindered
    · exact nomatch (run'_of_ok hr).symm.trans hwrong
    · exact hhindered
  · rcases hmoves .free h with hmoved | ⟨fault, -, hr⟩
    · exact hmoved
    · exact nomatch (run'_of_error hr).symm.trans hright
  · have htaken := htakes 100 0
    dsimp only at htaken
    cases hr : Pool.takeDetached 0 100 0 w' with
    | error fault w₂ => exact nomatch (run'_of_error hr).symm.trans hnone
    | ok found w₂ =>
        obtain rfl : found = none := Option.some.inj ((run'_of_ok hr).symm.trans hnone)
        rw [hr] at htaken
        obtain _ | ⟨-, habstains⟩ := htaken
        exact ⟨w₂, rfl, habstains⟩

end BufferPool.Desk
