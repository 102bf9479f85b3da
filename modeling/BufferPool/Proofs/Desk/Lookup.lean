import BufferPool.Proofs.Desk.StepLabels
import BufferPool.Proofs.Pool.Lookup

/-!
# What lookups find

At every scene, a lookup finds the first buffer of the free lane that is not retired, that nobody owns
and that has room enough, if there is one. Apart from that it leaves no trace: it acquires what it finds,
and every buffer that it tried on the way is as it was before, counting the attempt.
-/

namespace BufferPool.Desk

open PoolM World

/-- How a lookup ends in a pool with these entries in the free lane, from the head on. -/
structure FirstFit (w : World Desk) (p : PoolId) (size : UInt64) (t : Thread)
    (entries : List (Arena.Key × BufferId)) (found : Option Handle) (w' : World Desk) : Prop
    extends w.LooksUp p size t entries found w' where
  shown : readArena p (·.entries .free .forward) w = .ok entries w
  find : Pool.find p size t w = .ok found w'
  take : Pool.take p size t w = .ok found w'
  /-- A buffer that the thread owns already does not count. -/
  isSome_iff : found.isSome = true ↔ ∃ e ∈ entries, (w.buffer e.2).retired = false ∧
    (w.buffer e.2).owner = none ∧ size ≤ (w.buffer e.2).freeSize
  earliest : ∀ h, found = some h → h.pool = p ∧ (w.buffer h.buffer).suits size = true ∧
    ∃ before after, entries = before ++ (h.key, h.buffer) :: after ∧
      ∀ e ∈ before, ¬(w.buffer e.2).suits size = true
  /-- What is found is acquired and stays in the lane. -/
  acquired : ∀ h, found = some h → (w'.buffer h.buffer).owner = some t ∧
    w'.place? p h.key = some (h.buffer, some .free)
  /-- What is not retired is tried, up to the buffer that is found, and all of it if there is none. -/
  tried_iff : ∀ b, b ∈ w.tried size entries ↔ (w.buffer b).retired = false ∧
    ∃ key before after, entries = before ++ (key, b) :: after ∧
      ∀ e ∈ before, ¬(w.buffer e.2).suits size = true

/-- A lookup at any scene always ends, and it finds the first buffer of the free lane that is not
retired, has no owner and has room enough. -/
theorem first_fit_found {profile : Profile} {format : Format} {maker : Supply} {s : Scene}
    (hs : (Scene.empty profile format maker).Reaches s) {p : PoolId} {pool : Pool}
    (hp : s.world.pool? p = some pool) (size : UInt64) (t : Thread) :
    ∃ entries found w', FirstFit s.world p size t entries found w' := by
  obtain ⟨k, hk⟩ := Scene.Reaches.kept (kept_empty profile format maker) hs
  have ha := arena?_of_pool? hp
  obtain ⟨entries, he, hn, hplace⟩ := Arena.exists_entries_forward (hk.agrees.sound p _ ha)
    (hk.agrees.nodup_values ha) .free
  obtain ⟨found, w', hr, hl⟩ := Pool.find_looksUp hp he hn size t
  refine ⟨entries, found, w', hl, readArena_of_ok hp he, hr, hr, ?isSome_iff,
    fun h hf => hl.exists_append hf, fun h hf => ?acquired, fun b => mem_tried_iff⟩
  case isSome_iff =>
    rw [hl.isSome_iff]
    simp only [Buffer.suits_iff]
  case acquired =>
    obtain ⟨-, -, before, after, hsplit, -⟩ := hl.exists_append hf
    have hstays : s.world.place? p h.key = some (h.buffer, some .free) :=
      (place?_of_pool? hp h.key).trans (hplace (h.key, h.buffer) (hsplit ▸ List.mem_append_cons_self))
    refine ⟨hl.owner hf (hk.lt_size_of_place? hstays), ?_⟩
    rw [hl.rest]
    exact hstays

/-- In the free lane there are a retired buffer, one that the thread has, one that is almost full, and
two that suit. The first of these two is found. Only the three before the last are tried. -/
theorem fourth_buffer_found :
    let w := performAll 0 0 [.build { Config.standard with cacheCount := 5 } false,
      .pick .free .forward 0 (some "a"), .onBuffer (.named "a") (.setRetired true),
      .pick .free .forward 1 (some "b"), .onBuffer (.named "b") (.acquire none),
      .pick .free .forward 2 (some "c"), .onBuffer (.named "c") (.acquire none),
      .onBuffer (.named "c") (.commit 4000), .onBuffer (.named "c") .release]
      (.empty .checked .metered (.within none) .empty)
    let entries : List (Arena.Key × BufferId) :=
      [(⟨4, 0⟩, 4), (⟨3, 0⟩, 3), (⟨2, 0⟩, 2), (⟨1, 0⟩, 1), (⟨0, 0⟩, 0)]
    w.tried 100 entries = [3, 2, 1] ∧
      ∃ w', FirstFit w 0 100 0 entries (some ⟨0, ⟨1, 0⟩, 1⟩) w' := by
  intro w entries
  have hrun : (Scene.empty .checked .metered (.within none)).Reaches ⟨w, []⟩ :=
    reaches_performAll 0 0 _ _
  have hlive : (w.pool? 0).isSome = true := by decide +kernel
  have hshown : (readArena 0 (·.entries .free .forward)).run' w = some entries := by decide +kernel
  have hfound : (Pool.find 0 100 0).run' w = some (some ⟨0, ⟨1, 0⟩, 1⟩) := by decide +kernel
  have htried : w.tried 100 entries = [3, 2, 1] := by decide +kernel
  clear_value w
  obtain ⟨pool, hp⟩ := Option.isSome_iff_exists.1 hlive
  obtain ⟨shown, found, w', h⟩ := first_fit_found hrun hp 100 0
  obtain rfl : shown = entries := Option.some.inj ((run'_of_ok h.shown).symm.trans hshown)
  obtain rfl : found = some ⟨0, ⟨1, 0⟩, 1⟩ :=
    Option.some.inj ((run'_of_ok h.find).symm.trans hfound)
  exact ⟨htried, w', h⟩

end BufferPool.Desk
