import BufferPool.Proofs.Desk.StepLabels
import BufferPool.Proofs.Pool.Reclaiming

/-!
# Abandoned buffers

A detached buffer to which nobody holds a handle is abandoned. Nobody can ever get at it again: no
lane leads to it, and no key that is still around names it. The next allocation from its pool gets rid
of all such buffers before it asks for memory, and leaves every other buffer where it is.

A key that is around could name an abandoned buffer only if the slot had been vacated as often as a
generation can count. So it is counted along a run how often the slots are vacated.
-/

namespace BufferPool

open PoolM World

/-- The buffer is registered under the key, it is in neither lane, and there is no handle to it. -/
structure World.Abandoned (w : World Desk) (p : PoolId) (key : Arena.Key) (b : BufferId) : Prop where
  detached : w.place? p key = some (b, none)
  unheld : ∀ h ∈ w.handles, h.buffer ≠ b

/-- The buffer may not come into a lane. -/
def Warrant.barring (b : BufferId) : Warrant :=
  ⟨(· ≠ b), fun _ _ _ => True, fun _ => True, fun _ _ => trivial, fun _ _ => trivial⟩

namespace Desk

variable {s s' : Scene} {k : Books Desk} {p : PoolId} {pool : Pool} {key : Arena.Key} {b : BufferId}

/-- A run of several threads, with how often the slots of the pools were vacated. -/
inductive Scene.ReachesVacating (start : Scene) : Vacations → Scene → Prop where
  | refl : ReachesVacating start (fun _ _ => 0) start
  | step {n : Vacations} {s s' : Scene} (h : ReachesVacating start n s) (ha : ThreadStep s s') :
      ReachesVacating start (fun p i => n p i + (vacated s.world s'.world p i).toNat) s'

theorem Scene.ReachesVacating.reaches {start : Scene} {n : Vacations} (h : start.ReachesVacating n s) :
    start.Reaches s := by
  induction h with
  | refl => exact .refl
  | step _ ha ih => exact ih.tail ha

/-- Along every run it can be counted. -/
theorem Scene.Reaches.exists_vacations {start : Scene} (h : start.Reaches s) :
    ∃ n, start.ReachesVacating n s := by
  induction h with
  | refl => exact ⟨_, .refl⟩
  | tail _ ha ih =>
      obtain ⟨n, hn⟩ := ih
      exact ⟨_, hn.step ha⟩

/-- Every step of a thread takes the past along, as steps of a scene do. -/
theorem ThreadStep.updates (ha : ThreadStep s s') {c : Chronicle} (h : FitsScene c s) :
    ∃ m c' : Chronicle, m.ledger = c.ledger ∧ m.closed = c.closed ∧ m.Updates c' ∧ FitsScene c' s' := by
  cases ha with
  | call me p call _ => exact (SceneStep.world (.call _ me p call)).updates h
  | capture w _ p lane dir => exact (SceneStep.world (.capture w p lane dir)).updates h
  | hold hf =>
      refine ⟨c, c, rfl, rfl, .refl c, h.fits.hold fun g hg => ?_, h.reserved, h.nodup⟩
      rw [List.mem_singleton.1 hg]
      exact h.fits.roots _ (find?_mem_roots hf)
  | letGo hheld => exact (SceneStep.world (.letGo hheld)).updates h
  | sweep me sweep _ _ =>
      obtain ⟨c', hv, hfit, -⟩ := Sweep.evolves_visit me sweep _ c _ h.fits trivial
      refine ⟨c, c', rfl, rfl, hv.updates, hfit, ?_, h.nodup⟩
      rw [hv.updates.reserved]
      exact h.reserved
  | enterVisit _ hheld hin => exact (SceneStep.world (.enterVisit hheld hin)).updates h
  | leaveVisit w _ => exact (SceneStep.world (.leaveVisit w)).updates h
  | suspend w _ => exact (SceneStep.world (.suspend w)).updates h
  | resume _ => exact (SceneStep.world (.resume _)).updates h
  | leaveSuspended w _ => exact (SceneStep.world (.leaveSuspended w)).updates h
  | note w _ p n =>
      exact ⟨c, c, rfl, rfl, .refl c, h.fits.quiet (quiet_emit (.noted p n) w), h.reserved, h.nodup⟩
  | trace _ _ replies =>
      exact ⟨c, c, rfl, rfl, .refl c, h.fits.withDesk h.fits.roots, h.reserved, h.nodup⟩
  | reclaim w _ p => exact (SceneStep.world (.reclaim w p)).updates h
  | make hmake => exact (SceneStep.make hmake).updates h
  | makeNone hnone => exact (SceneStep.makeNone hnone).updates h
  | enroll name hmade _ => exact (SceneStep.enroll _ name hmade).updates h

theorem Scene.ReachesVacating.counted {profile : Profile} {format : Format} {maker : Supply} {n : Vacations}
    (h : (Scene.empty profile format maker).ReachesVacating n s) : ∃ c, Counted c n s := by
  induction h with
  | refl => exact ⟨.blank, counted_empty profile format maker⟩
  | step _ ha ih =>
      obtain ⟨c, hc⟩ := ih
      obtain ⟨m, c', hledger, hclosed, ht, hscene⟩ := ha.updates hc.toFitsScene
      exact ⟨c', (hc.updated hledger hclosed ht hscene).2⟩

/-- No handle has the key of an abandoned buffer, if the vacations of its slot are countable. -/
theorem Counted.key_ne_of_abandoned {c : Chronicle} {n : Vacations} (h : Counted c n s)
    (ha : s.world.Abandoned p key b) (hn : n.Countable p key.index) :
    ∀ g ∈ s.world.handles, g.pool = p → g.key ≠ key := by
  rintro g hg hgp rfl
  obtain ⟨arena, harena, hplace⟩ := Option.bind_eq_some_iff.1 ha.detached
  obtain ⟨pool, hp, rfl⟩ := Option.map_eq_some_iff.1 harena
  obtain ⟨node, hnode, rfl, -⟩ := Arena.place?_eq_some_iff.1 hplace
  have hcontains : pool.arena.contains g.key = true := by
    rw [Arena.contains, hnode]
    rfl
  have hget := h.get?_of_contains hp hn (h.known hg) hgp hcontains
  rw [Arena.get?, hnode] at hget
  exact ha.unheld g hg (Option.some.inj hget).symm

/-- Nothing is registered twice. -/
theorem Orderly.place?_unique (h : Orderly s.made k s.world) {q : PoolId} {other : Arena.Key}
    {lane lane' : Option Lane} (hp : s.world.place? p key = some (b, lane))
    (hq : s.world.place? q other = some (b, lane')) : q = p ∧ other = key := by
  have hhome := h.agrees.registered p b (mem_registered_of_place? hp)
  have hhome' := h.agrees.registered q b (mem_registered_of_place? hq)
  obtain rfl : q = p := Option.some.inj (hhome'.symm.trans hhome)
  obtain ⟨arena, harena, hplace⟩ := Option.bind_eq_some_iff.1 hp
  rw [place?, harena] at hq
  exact ⟨rfl, Arena.key_eq_of_nodup_values (h.agrees.nodup_values harena) hq hplace⟩

/-- The arena has the only reference to a registered buffer if there is no handle to it. -/
theorem Orderly.refs_eq_one_iff (h : Orderly s.made k s.world) {lane : Option Lane}
    (hp : s.world.place? p key = some (b, lane)) :
    s.world.refs b = 1 ↔ ∀ g ∈ s.world.handles, g.buffer ≠ b := by
  have hcounted : b ∈ s.world.counted k :=
    Multiset.mem_add.2 (.inl (mem_enrolled.2 ⟨p, mem_registered_of_place? hp⟩))
  have hone : (s.world.counted k).count b = 1 := Multiset.count_eq_one_of_mem h.agrees.nodup hcounted
  rw [h.agrees.refs, World.references, h.hand, add_zero, Multiset.count_add, hone,
    Nat.add_eq_left, Multiset.count_eq_zero, World.grips, Multiset.mem_coe, List.mem_map]
  refine ⟨fun hnone g hg hb => hnone ⟨g, hg, hb⟩, ?_⟩
  rintro hall ⟨g, hg, hb⟩
  exact hall g hg hb

theorem Orderly.abandoned_iff (h : Orderly s.made k s.world) :
    s.world.Abandoned p key b ↔ s.world.place? p key = some (b, none) ∧ s.world.refs b = 1 :=
  ⟨fun ha => ⟨ha.detached, (h.refs_eq_one_iff ha.detached).2 ha.unheld⟩,
    fun ha => ⟨ha.1, (h.refs_eq_one_iff ha.1).1 ha.2⟩⟩

/-- What is reclaimed is what is abandoned. -/
theorem Orderly.reclaimed (h : Orderly s.made k s.world) (hp : s.world.pool? p = some pool) :
    ∃ gone w, Pool.reclaim p s.world = .ok () w ∧ s.world.Reclaimed p gone w ∧
      ∀ key b, (key, b) ∈ gone ↔ s.world.Abandoned p key b := by
  have harena := arena?_of_pool? hp
  obtain ⟨gone, w, hrun, hr⟩ := Pool.reclaim_reclaimed hp (h.agrees.sound p _ harena)
    (h.agrees.nodup_values harena)
    fun key b lane hplace => h.agrees.registered p b (mem_registered_of_place? hplace)
  exact ⟨gone, w, hrun, hr, fun key b => (hr.abandoned key b).trans h.abandoned_iff.symm⟩

/-- Nobody gets at the buffer: there is no handle to it, it is in no lane, and no request gives it
out. -/
structure OutOfReach (w : World Desk) (b : BufferId) : Prop where
  handles : ∀ h ∈ w.handles, h.buffer ≠ b
  unlisted : ∀ q key lane, w.place? q key ≠ some (b, some lane)
  requests : ∀ (request : Request) q size t h w', request.perform q size t w = .ok (some h) w' →
    h.buffer ≠ b

theorem OutOfReach.of_open {w : World Desk} (h : (Warrant.barring b).Open w) : OutOfReach w b := by
  refine ⟨fun g hg => (h.fine g hg).enters, ?_, fun request q size t g w' hrun => ?_⟩
  · rintro q key lane hplace
    exact h.covers.listed q key b lane hplace rfl
  · obtain ⟨-, hprovided⟩ := (warranted_request (W := .barring b) (fun _ _ _ _ => trivial)
      Warrant.stable_true (fun _ _ _ _ => trivial) request w h.toReady trivial).2 (some g) w' hrun
    exact (hprovided g rfl).1.enters

/-- An abandoned buffer whose key is not around any more is barred from lanes and hands. -/
theorem Orderly.open_barring (h : Orderly s.made k s.world) (ha : s.world.Abandoned p key b)
    (hkey : ∀ g ∈ s.world.handles, g.pool = p → g.key ≠ key) : s.Open (.barring b) := by
  have hreg := mem_registered_of_place? ha.detached
  have hcovers : (Warrant.barring b).Covers s.world := by
    refine ⟨?_, ?_⟩
    · rintro b' hb' rfl
      exact Nat.not_lt.2 hb' (h.lt_size_of_place? ha.detached)
    · rintro q other b' lane hplace rfl
      obtain ⟨rfl, rfl⟩ := h.place?_unique ha.detached hplace
      exact nomatch ha.detached.symm.trans hplace
  refine ⟨⟨Scene.Kept.ready ⟨k, h⟩ hcovers, fun g hg => ⟨ha.unheld g hg, ?_⟩⟩, fun b' hb' => ⟨?_, ?_⟩⟩
  · rintro b' lane hplace rfl
    obtain ⟨hpool, hsame⟩ := h.place?_unique ha.detached hplace
    exact hkey g hg hpool hsame
  · rintro rfl
    exact h.notMem_made hreg hb'
  · exact h.lt_size_of_mem (Multiset.mem_add.2 (.inl (Multiset.mem_add.2 (.inr hb'))))

/-- It stays out of reach whatever is done. -/
theorem Orderly.outOfReach (h : Orderly s.made k s.world) (ha : s.world.Abandoned p key b)
    (hkey : ∀ g ∈ s.world.handles, g.pool = p → g.key ≠ key) (hr : s.Reaches s') :
    OutOfReach s'.world b :=
  .of_open (hr.led (fun _ _ _ => trivial) (fun _ => trivial) (h.open_barring ha hkey)).world

/-- An allocation in two parts, with the world in between. -/
structure Allocates (p : PoolId) (size : UInt64) (gone : List (Arena.Key × BufferId))
    (w w₁ w' : World Desk) : Prop where
  /-- First of all, what is abandoned is reclaimed. -/
  reclaimed : w.Reclaimed p gone w₁
  abandoned : ∀ key b, (key, b) ∈ gone ↔ w.Abandoned p key b
  /-- Then memory is asked for. -/
  grows : Pool.allocate p size w = (Pool.make p size >>= fun made => made.mapM (Pool.enroll p)) w₁
  leaves : w' = (Pool.allocate p size).leaves w
  handles : w'.handles = w.handles
  buffer : ∀ b < w.cells.size, w'.buffer b = w.buffer b
  /-- Only abandoned buffers are not there any more, and only the one that is returned is new. -/
  place : ∀ q key b lane, w'.place? q key = some (b, lane) ↔
    (w.place? q key = some (b, lane) ∧ ¬(q = p ∧ w.Abandoned p key b)) ∨
      ((Pool.allocate p size).run' w).join = some ⟨q, key, b⟩ ∧ lane = none
  /-- Every detached buffer has a handle, or it is the one that is returned. -/
  detached : ∀ key b, w'.place? p key = some (b, none) → (∃ h ∈ w'.handles, h.buffer = b) ∨
    ((Pool.allocate p size).run' w).join = some ⟨p, key, b⟩

theorem Orderly.allocates (h : Orderly s.made k s.world) (hp : s.world.pool? p = some pool)
    (size : UInt64) : ∃ gone w₁ w', Allocates p size gone s.world w₁ w' := by
  obtain ⟨gone, w₁, hrun, hr, habandoned⟩ := h.reclaimed hp
  have hsound : w₁.Sound := by
    have hmakes := Pool.warranted_reclaim (σ := Desk) (p := p) (Warrant.stable_true (W := .all))
      s.world (Scene.Kept.ready ⟨k, h⟩ ⟨fun _ _ => trivial, fun _ _ _ _ _ => trivial⟩) trivial
    rw [leaves_of_ok hrun] at hmakes
    exact hmakes.1.steps.sound h.agrees.sound
  have hgrows : Pool.allocate p size s.world = _ := Pool.allocate_of_reclaim hrun
  obtain ⟨hgrown, -⟩ := Pool.grown_leaves hsound p size
  have hleaves : (Pool.allocate p size).leaves s.world =
      (Pool.make p size >>= fun made => made.mapM (Pool.enroll p)).leaves w₁ := by
    rw [leaves, hgrows, leaves]
  have hresult : (Pool.allocate p size).run' s.world =
      (Pool.make p size >>= fun made => made.mapM (Pool.enroll p)).run' w₁ := by
    delta EStateM.run' EStateM.run
    rw [hgrows]
  rw [← hleaves, ← hresult] at hgrown
  have hkept : ∀ q key b lane, w₁.place? q key = some (b, lane) ↔
      s.world.place? q key = some (b, lane) ∧ ¬(q = p ∧ s.world.Abandoned p key b) := by
    intro q key b lane
    rw [hr.place]
    split_ifs with hgone
    · obtain ⟨rfl, hmem⟩ := hgone
      obtain ⟨⟨other, b'⟩, hin, rfl⟩ := List.mem_map.1 hmem
      have ha := (habandoned other b').1 hin
      refine ⟨False.elim, ?_⟩
      rintro ⟨hplace, hnot⟩
      refine absurd ⟨rfl, ?_⟩ hnot
      have hsame := ha.detached.symm.trans hplace
      rwa [← (Prod.mk.inj (Option.some.inj hsame)).1]
    · refine ⟨fun hplace => ⟨hplace, ?_⟩, fun hplace => hplace.1⟩
      rintro ⟨rfl, ha⟩
      exact hgone ⟨rfl, List.mem_map.2 ⟨(key, b), (habandoned key b).2 ha, rfl⟩⟩
  have hplace : ∀ q key b lane,
      ((Pool.allocate p size).leaves s.world).place? q key = some (b, lane) ↔
        (s.world.place? q key = some (b, lane) ∧ ¬(q = p ∧ s.world.Abandoned p key b)) ∨
          ((Pool.allocate p size).run' s.world).join = some ⟨q, key, b⟩ ∧ lane = none :=
    fun q key b lane => by rw [hgrown.place, hkept]
  have hhandles : ((Pool.allocate p size).leaves s.world).handles = s.world.handles := by
    rw [World.handles, hgrown.client, hgrown.held, hr.client, hr.held, World.handles]
  refine ⟨gone, w₁, _, hr, habandoned, hgrows, rfl, hhandles, fun b hb => ?_, hplace,
    fun key b hk => ?_⟩
  · rw [hgrown.buffer b (Nat.lt_of_lt_of_le hb hr.size), hr.buffer b hb]
  · rcases (hplace p key b none).1 hk with ⟨hold, hnot⟩ | ⟨hnew, -⟩
    · left
      by_contra hnone
      push Not at hnone
      exact hnot ⟨rfl, hold, hhandles ▸ hnone⟩
    · exact .inr hnew

/-- At every scene of a run, an allocation first of all reclaims what is abandoned, whatever comes of
it afterwards, and every other buffer stays where it is and as it is. Then every detached buffer has a
handle. The two ways to allocate do the same. An abandoned buffer stays out of reach for good, as far as
the vacations of its slot are countable, a bound that no execution reaches, or no old key names it. -/
theorem abandoned_buffers_reclaimed {profile : Profile} {format : Format} {maker : Supply}
    {n : Vacations} (hs : (Scene.empty profile format maker).ReachesVacating n s) :
    (∀ p pool, s.world.pool? p = some pool → ∀ size,
      Pool.allocateWithin (σ := Desk) p size = Pool.allocate p size ∧
      ∃ gone w₁ w', Allocates p size gone s.world w₁ w') ∧
    ∀ p key b, s.world.Abandoned p key b →
      (n.Countable p key.index ∨ ∀ h ∈ s.world.handles, h.pool = p → h.key ≠ key) →
        ∀ s', s.Reaches s' → OutOfReach s'.world b := by
  have hkept : s.Kept := Scene.Reaches.kept (kept_empty profile format maker) hs.reaches
  obtain ⟨k, h⟩ := hkept
  refine ⟨fun p pool hp size => ⟨Pool.allocateWithin_eq_allocate p size, h.allocates hp size⟩,
    fun p key b ha hkey s' hr => h.outOfReach ha ?_ hr⟩
  rcases hkey with hfew | hnone
  · obtain ⟨c, hc⟩ := hs.counted
    exact hc.key_ne_of_abandoned ha hfew
  · exact hnone

/-- Two buffers are allocated and the handle to the first one is dropped. The next allocation takes its
slot. -/
theorem dropped_buffer_reclaimed :
    let w := performAll 0 0 [.build .standard false, .obtain .allocate 100 none (some "a"),
      .obtain .allocate 100 none (some "b"), .discard (.named "a")]
      (.empty .checked .plain (.within none) .empty)
    let w' := performAll 0 0 [.obtain .allocate 100 none (some "c")] w
    w.Abandoned 0 ⟨0, 0⟩ 0 ∧ (∃ gone w₁ w₂, Allocates 0 100 gone w w₁ w₂) ∧
      w'.place? 0 ⟨0, 1⟩ = some (2, none) ∧ OutOfReach w' 0 := by
  intro w w'
  have hrun : (Scene.empty .checked .plain (.within none)).Reaches ⟨w, []⟩ :=
    reaches_performAll 0 0 _ _
  have hmore : Scene.Reaches ⟨w, []⟩ ⟨w', []⟩ := reaches_performAll 0 0 _ _
  obtain ⟨n, hn⟩ := hrun.exists_vacations
  have hplace : w.place? 0 ⟨0, 0⟩ = some (0, none) := by decide +kernel
  have hhandles : ∀ h ∈ w.handles, h.buffer ≠ 0 ∧ h.key ≠ ⟨0, 0⟩ := by decide +kernel
  have habandoned : w.Abandoned 0 ⟨0, 0⟩ 0 := ⟨hplace, fun h hh => (hhandles h hh).1⟩
  have hlive : (w.pool? 0).isSome = true := by decide +kernel
  obtain ⟨pool, hp⟩ := Option.isSome_iff_exists.1 hlive
  have hgone : ∀ h ∈ w.handles, h.pool = 0 → h.key ≠ ⟨0, 0⟩ := fun h hh _ => (hhandles h hh).2
  have hreused : w'.place? 0 ⟨0, 1⟩ = some (2, none) := by decide +kernel
  obtain ⟨hallocates, hreach⟩ := abandoned_buffers_reclaimed hn
  have hout := hreach 0 ⟨0, 0⟩ 0 habandoned (.inr hgone) _ hmore
  dsimp only at hout
  exact ⟨habandoned, (hallocates 0 pool hp 100).2, hreused, hout⟩

end Desk

end BufferPool
