import BufferPool.Proofs.Desk.Completion
import BufferPool.Proofs.Pool.Settling

/-!
# Passes of a thread's own sweep

At every scene, a thread that makes a sweep and runs it over a lane comes to the end of the lane, if its
one-shot buffers are flushed. Then the one-shot buffers are gone, nobody owns what nobody else owned
before, and it is empty. All of this is counted. What another thread owns stays as it is and is not
counted. If the thread runs its sweep again right away, it counts again what it has emptied, and nothing
else happens.
-/

namespace BufferPool.Desk

open PoolM World Sweep

/-- The lane of a pool at a scene consists of different buffers that are there. -/
theorem Orderly.sweepable {s : Scene} {k : Books Desk} (h : Orderly s.made k s.world) {p : PoolId}
    {pool : Pool} (hp : s.world.pool? p = some pool) {route : Pool.Route}
    (hflushed : s.world.profile = .checked → ∀ e ∈ s.world.row p route.target,
      (s.world.buffer e.2).transient = true → (s.world.buffer e.2).unflushedSize = 0)
    (hsome : s.world.profile = .checked → route = .free → s.world.row p .free ≠ []) :
    s.world.Sweepable p route := by
  have ht := h.tidy hp
  obtain ⟨c, hs⟩ := ht.stocks
  exact ⟨ht.nodup_row _, fun e he => ht.lt_size (hs.mem_row.1 he), hflushed, hsome⟩

/-- A pass at any scene of a run comes to its end, if one-shot buffers are flushed and, in the checked
profile, a walk over the free lane finds one there. It settles the lane, whoever owns its one-shot
buffers. It counts what has left and what was emptied. Unless the free lane is left empty, another pass
finds everything in its place, moves nothing, and counts what was emptied. -/
theorem pass_settles_lane {profile : Profile} {format : Format} {maker : Supply} {s : Scene}
    (hs : (Scene.empty profile format maker).Reaches s) {p : PoolId} {pool : Pool}
    (hp : s.world.pool? p = some pool) (route : Pool.Route) (dir : Direction) (t : Thread)
    (n : UInt64)
    (hflushed : s.world.profile = .checked → ∀ e ∈ s.world.row p route.target,
      (s.world.buffer e.2).transient = true → (s.world.buffer e.2).unflushedSize = 0)
    (hsome : s.world.profile = .checked → route = .free → s.world.row p .free ≠ []) :
    ∃ w', (Sweep.mk p route.target t n).pass t route dir s.world =
        .ok ⟨p, route.target, t,
          n + .ofNat (((s.world.row p route.target).countP fun e => (s.world.buffer e.2).transient) +
            (s.world.row p route.target).countP fun e => recycles t (s.world.buffer e.2))⟩ w' ∧
      Settles p route.target t dir s.world w' ∧
      ((s.world.queue p route.target dir).map (·.buffer)).Nodup ∧
      (∀ e ∈ s.world.row p route.target, (s.world.buffer e.2).transient = false →
        w'.place? p e.1 = some (e.2, some route.target) ∧
        ((s.world.buffer e.2).owner = none ∨ (s.world.buffer e.2).owner = some t →
          (s.world.buffer e.2).Emptied (w'.buffer e.2)) ∧
        ∀ u, (s.world.buffer e.2).owner = some u → u ≠ t →
          (w'.buffer e.2).bare = (s.world.buffer e.2).bare) ∧
      ((s.world.profile = .checked → route = .free → w'.row p .free ≠ []) → ∀ dir' n',
        ∃ w'', (Sweep.mk p route.target t n').pass t route dir' w' =
            .ok ⟨p, route.target, t,
              n' + .ofNat ((s.world.row p route.target).countP fun e =>
                recycles t (s.world.buffer e.2))⟩ w'' ∧
          Unmoved p w' w'') := by
  obtain ⟨k, hk⟩ := Scene.Reaches.kept (kept_empty profile format maker) hs
  have hw := hk.sweepable hp hflushed hsome
  obtain ⟨c, hstocks⟩ := (hk.tidy hp).stocks
  obtain ⟨w', c', hr, hst, hs', hagain⟩ := pass_settles hstocks hw dir t n
  refine ⟨w', hr, hst, hw.nodup_queue dir, fun e he hlasting => ⟨?place, fun howner => ?emptied,
    fun u howner hne => ?skipped⟩, fun hsome' dir' n' => ?again⟩
  case place =>
    rw [hst.kept, hstocks.mem_row.1 he]
    intro b hin
    obtain ⟨rfl, -⟩ := hstocks.eq_of_mem_row he hin
    exact hlasting
  case emptied =>
    rw [hst.buffer, if_pos (List.mem_map_of_mem he)]
    exact emptied_swept (recycles_iff.2 ⟨hlasting, howner⟩)
  case skipped =>
    rw [hst.buffer, if_pos (List.mem_map_of_mem he),
      swept_of_skips (skips_iff.2 ⟨hlasting, u, howner, hne⟩)]
    rfl
  case again =>
    obtain ⟨w'', c'', hr', hst', -⟩ := pass_settles hs' (hagain hsome') dir' t n'
    obtain ⟨hunmoved, hgone, hemptied⟩ := pass_again hst hst'
    rw [hgone, hemptied, Nat.zero_add] at hr'
    exact ⟨w'', hr', hunmoved⟩

/-- In the full lane there are a buffer that thread 0 owns, one that nobody owns and that is not empty,
one that thread 1 owns, and a one-shot buffer. A pass on thread 0 counts three of them, and another one
two. -/
theorem mixed_lane_settled :
    let w := performAll 0 0 [.obtain .provideFull 100 none (some "c"),
        .onBuffer (.named "c") (.write [1, 2, 3]), .onBuffer (.named "c") .release,
        .obtain .provideFull 100 none (some "d")]
      (performAll 1 0 [.obtain .provideFull 100 none (some "b")]
        (performAll 0 0 [.build .standard false, .obtain .provideTransientFull 100 none (some "a")]
          (.empty .checked .metered (.within none) .empty)))
    w.row 0 .full = [(⟨3, 0⟩, 3), (⟨2, 0⟩, 2), (⟨1, 0⟩, 1), (⟨0, 0⟩, 0)] ∧
      ∃ w' w'', (Sweep.mk 0 .full 0 0).pass 0 .full .forward w = .ok ⟨0, .full, 0, 3⟩ w' ∧
        Settles 0 .full 0 .forward w w' ∧
        (Sweep.mk 0 .full 0 3).pass 0 .full .forward w' = .ok ⟨0, .full, 0, 5⟩ w'' ∧
        Unmoved 0 w' w'' := by
  intro w
  have hrun : (Scene.empty .checked .metered (.within none)).Reaches ⟨w, []⟩ :=
    ((reaches_performAll 0 0 _ _).trans (reaches_performAll 1 0 _ _)).trans
      (reaches_performAll 0 0 _ _)
  have hlive : (w.pool? 0).isSome = true := by decide +kernel
  have hrow : w.row 0 .full = [(⟨3, 0⟩, 3), (⟨2, 0⟩, 2), (⟨1, 0⟩, 1), (⟨0, 0⟩, 0)] := by decide +kernel
  have hflushed : ∀ e ∈ w.row 0 .full, (w.buffer e.2).transient = true →
      (w.buffer e.2).unflushedSize = 0 := by decide +kernel
  have hcounts : ((w.row 0 .full).countP fun e => (w.buffer e.2).transient) = 1 ∧
      ((w.row 0 .full).countP fun e => recycles 0 (w.buffer e.2)) = 2 := by decide +kernel
  clear_value w
  obtain ⟨pool, hp⟩ := Option.isSome_iff_exists.1 hlive
  obtain ⟨w', hr, hst, -, -, hagain⟩ := pass_settles_lane hrun hp .full .forward 0 0
    (fun _ => hflushed) nofun
  obtain ⟨w'', hr', hunmoved⟩ := hagain nofun .forward 3
  dsimp only [Pool.Route.target] at hr hr'
  rw [hcounts.1, hcounts.2] at hr
  rw [hcounts.2] at hr'
  exact ⟨hrow, w', w'', hr, hst, hr', hunmoved⟩

end BufferPool.Desk
