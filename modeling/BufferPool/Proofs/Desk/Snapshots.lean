import BufferPool.Proofs.Desk.Abandonment
import BufferPool.Proofs.Desk.Publication
import BufferPool.Proofs.Desk.Runs
import BufferPool.Proofs.Pool.VisitLogs

/-!
# Traversals and what they capture

A traversal visits the buffers that are in the lane when it begins, each once and in the order of its
direction, up to the first visit that stops it. What the visits do to the pool makes no difference. Until
the traversal ends it holds what it has captured: no payload of it is freed, and reclaiming passes it by.
-/

namespace BufferPool

open PoolM World

/-- The members of a lane from the head on, in the order in which they are visited. -/
def Direction.orient (dir : Direction) (handles : List Handle) : List Handle :=
  match dir with
  | .forward => handles
  | .backward => handles.reverse

namespace Desk

variable {α : Type} {s s' : Scene} {p : PoolId} {lane : Lane} {dir : Direction} {handle : Handle}
  {handles : List Handle} {held : List (List Handle)} {made : List BufferId}

/-- The payload of the buffer is there, and no allocation takes the buffer away from its place. -/
structure Secured (w : World Desk) (b : BufferId) : Prop where
  referred : w.refs b ≠ 0
  unfreed : ∀ p tag size, .freed p b tag size ∉ w.events
  unabandoned : ∀ p key, ¬w.Abandoned p key b
  reclaim : ∀ p q key lane, w.place? q key = some (b, lane) →
    ((Pool.reclaim p).leaves w).place? q key = some (b, lane)
  allocate : ∀ p size q key lane, w.place? q key = some (b, lane) →
    ((Pool.allocate p size).leaves w).place? q key = some (b, lane)

theorem Scene.Kept.secured (hs : s.Kept) (hheld : handles ∈ s.world.held) (hin : handle ∈ handles) :
    Secured s.world handle.buffer := by
  obtain ⟨k, hk⟩ := hs
  have hgrip : handle ∈ s.world.handles :=
    List.mem_append.2 (.inr (List.mem_flatten.2 ⟨handles, hheld, hin⟩))
  have hreferred : handle.buffer ∈ s.references :=
    Multiset.mem_add.2 (.inr (List.mem_map_of_mem hgrip))
  have hunabandoned : ∀ p key, ¬s.world.Abandoned p key handle.buffer :=
    fun p key ha => ha.unheld handle hgrip rfl
  refine ⟨?referred, ?unfreed, hunabandoned, fun p q key lane hplace => ?reclaim,
    fun p size q key lane hplace => ?allocate⟩
  case referred =>
    rw [hk.refs_eq]
    exact Multiset.count_ne_zero.2 hreferred
  case unfreed =>
    obtain ⟨c, hc, -⟩ := hk.agrees.exists_of_mem (hk.references ▸ hreferred)
    exact (hk.fate hc).not_freed hreferred
  case reclaim =>
    cases hp : s.world.pool? p with
    | none =>
        rw [leaves_of_error (Pool.reclaim_of_none hp)]
        exact hplace
    | some pool =>
        obtain ⟨gone, w, hrun, hr, habandoned⟩ := hk.reclaimed hp
        rw [leaves_of_ok hrun, hr.place, if_neg]
        · exact hplace
        · rintro ⟨rfl, hmem⟩
          obtain ⟨⟨other, b⟩, hgone, rfl⟩ := List.mem_map.1 hmem
          have ha := (habandoned other b).1 hgone
          have hsame := hplace.symm.trans ha.detached
          obtain ⟨rfl, -⟩ := Prod.mk.inj (Option.some.inj hsame)
          exact hunabandoned q other ha
  case allocate =>
    cases hp : s.world.pool? p with
    | none =>
        have hrun : Pool.allocate p size s.world = .error (.noPool p) s.world :=
          bind_of_error _ (Pool.reclaim_of_none hp)
        rw [leaves_of_error hrun]
        exact hplace
    | some pool =>
        obtain ⟨gone, w₁, w', h⟩ := hk.allocates hp size
        rw [← h.leaves]
        exact (h.place q key _ lane).2 (.inl ⟨hplace, fun ha => hunabandoned p key ha.2⟩)

/-- The visits lead from scene to scene, whatever comes of them, and let go of what they take hold of.
`I` is what the visitor relies on. -/
def Roams (made : List BufferId) (held : List (List Handle)) (handles : List Handle)
    (I : World Desk → Prop) (visit : α → Handle → DeskM (Bool × α)) : Prop :=
  ∀ a, ∀ h ∈ handles, ∀ w, Scene.Kept ⟨w, made⟩ → w.held = handles :: held → I w →
    Scene.Reaches ⟨w, made⟩ ⟨(visit a h).leaves w, made⟩ ∧
    ((visit a h).leaves w).held = handles :: held ∧ ∀ r w', visit a h w = .ok r w' → I w'

/-- Visits of such a visitor. -/
theorem Roams.visits {I : World Desk → Prop} {visit : α → Handle → DeskM (Bool × α)}
    (hv : Roams made held handles I visit) {a a' : α} {w w' : World Desk} {log : List (Handle × Bool)}
    (ht : Pool.Visits visit a w log a' w') (hlog : ∀ e ∈ log, e.1 ∈ handles)
    (hk : Scene.Kept ⟨w, made⟩) (hheld : w.held = handles :: held) (hI : I w) :
    Scene.Reaches ⟨w, made⟩ ⟨w', made⟩ ∧ w'.held = handles :: held ∧ I w' := by
  induction ht with
  | done => exact ⟨.refl, hheld, hI⟩
  | @visit a a₁ a₂ w w₁ w₂ h more log hv' rest ih =>
      obtain ⟨hhead, htail⟩ := List.forall_mem_cons.1 hlog
      obtain ⟨hr, hheld₁, hI₁⟩ := hv a h hhead w hk hheld hI
      rw [leaves_of_ok hv'] at hr hheld₁
      obtain ⟨hr', hheld', hI'⟩ := ih htail (Scene.Reaches.kept hk hr) hheld₁ (hI₁ _ _ hv')
      exact ⟨hr.trans hr', hheld', hI'⟩

/-- Commands make such a visitor. They rely on no visit being present yet. -/
theorem roams_commands (held : List (List Handle)) (handles : List Handle) (c : Context)
    (stopAfter : Option Nat) (body : List Command) :
    Roams [] held handles (·.client.present = none) (visit stopAfter (runAll c body)) := by
  intro n h hin w hk hheld hfree
  obtain ⟨visits, hvisits⟩ : ∃ visits, w.client.suspended.map (·.handle) = visits := ⟨_, rfl⟩
  have hstart : Along w (handles :: held) none visits w :=
    ⟨.refl, hheld, by rw [hfree]; rfl, hvisits⟩
  have hbody := along_runAll hk c body (handles :: held) (h :: visits)
  have hvisit := along_visit hin hbody stopAfter n w hstart
  cases hr : visit stopAfter (runAll c body) n h w with
  | ok r w' =>
      rw [hr] at hvisit
      rw [leaves_of_ok hr]
      refine ⟨hvisit.reaches, hvisit.held, fun r' w'' he => ?_⟩
      obtain ⟨-, rfl⟩ := EStateM.Result.ok.inj he
      exact Option.map_eq_none_iff.1 hvisit.present
  | error fault w' =>
      rw [hr] at hvisit
      rw [leaves_of_error hr]
      exact ⟨hvisit.reaches, hvisit.held, nofun⟩

/-- The handles are those of the members of the lane, in the order in which a traversal captures them. -/
structure Snapshot (s : Scene) (p : PoolId) (lane : Lane) (dir : Direction) (handles : List Handle) :
    Prop where
  mem_iff : ∀ h, h ∈ handles ↔ h.pool = p ∧ s.world.place? p h.key = some (h.buffer, some lane)
  /-- Each buffer is captured once. -/
  nodup : (handles.map (·.buffer)).Nodup
  capture : Pool.capture p lane dir s.world = .ok handles (s.world.hold handles)
  /-- A log has no visit out of turn, and its answer says whether all visits went on. -/
  visits : ∀ {done log}, Pool.VisitLog handles done log →
    log.map (·.1) <+: handles ∧ (done = true ↔ ∀ e ∈ log, e.2 = true)
  /-- Whatever the visitor does, a traversal that ends has visited the captured buffers in their order,
  up to the first visit that has stopped it, and it says whether none has. -/
  ends_iff : ∀ {α : Type} (visit : α → Handle → DeskM (Bool × α)) start answer a w',
    Pool.travel p (.lane lane) dir visit start s.world = .ok (answer, a) w' ↔
      ∃ done log w, Pool.VisitLog handles done log ∧
        Pool.Visits visit start (Pool.embarked p lane dir handles s.world) log a w ∧
        answer = some done ∧ w' = w.letGo
  /-- And it faults only if a visit does. -/
  faults_iff : ∀ {α : Type} (visit : α → Handle → DeskM (Bool × α)) start fault w',
    Pool.travel p (.lane lane) dir visit start s.world = .error fault w' ↔
      ∃ front h rest a w₁ w₂, handles = front ++ h :: rest ∧
        Pool.Visits visit start (Pool.embarked p lane dir handles s.world) (front.map (·, true)) a w₁ ∧
        visit a h w₁ = .error fault w₂ ∧ w' = w₂.letGo
  /-- Wherever a run leads, what was captured is secured for as long as it is held. An event is never
  taken back, so it has not been freed in between either. -/
  secured : ∀ s', Scene.Reaches ⟨s.world.hold handles, s.made⟩ s' → handles ∈ s'.world.held →
    ∀ h ∈ handles, Secured s'.world h.buffer
  /-- It is held all the time: at the beginning of every visit, and at the end of it. -/
  remains : ∀ {α : Type} {I : World Desk → Prop} {visit : α → Handle → DeskM (Bool × α)},
    Roams s.made s.world.held handles I visit → I (Pool.embarked p lane dir handles s.world) →
    ∀ start log a w, Pool.Visits visit start (Pool.embarked p lane dir handles s.world) log a w →
      log.map (·.1) <+: handles → ∀ h ∈ handles, ∀ w', w' = w ∨ w' = (visit a h).leaves w →
        Scene.Reaches ⟨s.world.hold handles, s.made⟩ ⟨w', s.made⟩ ∧ handles ∈ w'.held

theorem reaches_hold (hcap : Pool.capture p lane dir s.world = .ok handles (s.world.hold handles)) :
    s.Reaches ⟨s.world.hold handles, s.made⟩ := by
  have hstep := ThreadStep.capture s.world s.made p lane dir
  rw [leaves_of_ok hcap] at hstep
  exact .single hstep

theorem Scene.Kept.snapshot (hs : s.Kept) (hm : s.world.Members p lane handles)
    (hcap : Pool.capture p lane dir s.world = .ok handles (s.world.hold handles)) :
    Snapshot s p lane dir handles where
  mem_iff := hm.mem_iff
  nodup := by
    obtain ⟨k, hk⟩ := hs
    exact hm.nodup_buffers fun _ ha => hk.agrees.nodup_values ha
  capture := hcap
  visits hc := ⟨hc.visited, hc.done_iff⟩
  ends_iff _ _ _ _ _ := Pool.travel_eq_ok_iff hcap
  faults_iff _ _ _ _ := Pool.travel_eq_error_iff hcap
  secured s' hr hheld h hin :=
    (Scene.Reaches.kept (Scene.Reaches.kept hs (reaches_hold hcap)) hr).secured hheld hin
  remains {α I visit} hv hI start log a w ht hlog h hin w' hw' := by
    have hnoted : Scene.Reaches ⟨s.world.hold handles, s.made⟩
        ⟨Pool.embarked p lane dir handles s.world, s.made⟩ := .single (.note _ _ _ _)
    have hkept := Scene.Reaches.kept (Scene.Reaches.kept hs (reaches_hold hcap)) hnoted
    have hall : ∀ e ∈ log, e.1 ∈ handles := fun e he => hlog.subset (List.mem_map_of_mem he)
    obtain ⟨hr, hheld, hI'⟩ := hv.visits ht hall hkept rfl hI
    rcases hw' with rfl | rfl
    · exact ⟨hnoted.trans hr, hheld ▸ List.mem_cons_self⟩
    · obtain ⟨hr', hheld', -⟩ := hv a h hin w (Scene.Reaches.kept hkept hr) hheld hI'
      exact ⟨(hnoted.trans hr).trans hr', hheld' ▸ List.mem_cons_self⟩

/-- At every scene and for either direction, a traversal of a lane works on a snapshot of it: what is
visited was captured in the beginning, and until the end of the traversal what was captured is secured
against freeing and reclaiming. The visits may do whatever commands can do. -/
theorem snapshot_traversed {profile : Profile} {format : Format} {maker : Supply} {s : Scene}
    (hs : (Scene.empty profile format maker).Reaches s) {p : PoolId} {pool : Pool}
    (hp : s.world.pool? p = some pool) (lane : Lane) :
    (∃ lineup, s.world.Lineup p lane lineup ∧
      ∀ dir : Direction, Snapshot s p lane dir (dir.orient lineup)) ∧
    ∀ held handles c stopAfter body, Roams [] held handles (·.client.present = none)
      (visit stopAfter (runAll c body)) := by
  have hkept : s.Kept := Scene.Reaches.kept (kept_empty profile format maker) hs
  obtain ⟨lineup, h⟩ := hs.chronological.lineup hp lane
  have hnodup : lineup.Nodup := by
    rw [List.nodup_iff_pairwise_ne]
    refine h.latestFirst.imp fun hlt heq => ?_
    rw [heq] at hlt
    exact Nat.lt_irrefl _ hlt
  refine ⟨⟨lineup, h, fun dir => ?_⟩, roams_commands⟩
  cases dir with
  | forward => exact hkept.snapshot ⟨hnodup, h.mem_iff⟩ h.forward
  | backward =>
      refine hkept.snapshot ⟨List.nodup_reverse.2 hnodup, fun g => ?_⟩ h.backward
      rw [← h.mem_iff]
      exact List.mem_reverse

/-- Three buffers are published and visited, the oldest first. Every visit takes its buffer out of the
lane, publishes another one and allocates, and the first visit gives up all handles that the desk has.
Still there are three visits, to the three buffers that were captured. -/
theorem removed_buffers_visited :
    let w := performAll 0 0 [.build .standard false, .obtain .provideFull 100 none (some "a"),
      .obtain .provideFull 100 none (some "b"), .obtain .provideFull 100 none (some "c"),
      .discard (.named "a")] (.empty .checked .plain (.within none) .empty)
    let handles : List Handle := [⟨0, ⟨0, 0⟩, 0⟩, ⟨0, ⟨1, 0⟩, 1⟩, ⟨0, ⟨2, 0⟩, 2⟩]
    let body : List Command := [.call "remove" .critical 0 (.place .visited (.remove .full)),
      .call "discard" .anywhere 0 (.discard (.named "b")),
      .call "discard" .anywhere 0 (.discard (.named "c")),
      .call "provide" .outside 0 (.obtain .provideFull 100 none none),
      .call "allocate" .outside 0 (.obtain .allocate 100 none none)]
    let iterate : Command := .visiting "iterate" 0 (.lane .full) .backward none body
    Snapshot ⟨w, []⟩ 0 .full .backward handles ∧
      (iterate.run ⟨0, none, true⟩).run' w = some (.visits (some true) 3) := by
  intro w handles body iterate
  have hrun : (Scene.empty .checked .plain (.within none)).Reaches ⟨w, []⟩ :=
    reaches_performAll 0 0 _ _
  have hlive : (w.pool? 0).isSome = true := by decide +kernel
  have hshown : (Pool.capture 0 .full .backward).run' w = some handles := by decide +kernel
  have hvisits : (iterate.run ⟨0, none, true⟩).run' w = some (.visits (some true) 3) := by
    decide +kernel
  clear_value w
  obtain ⟨pool, hp⟩ := Option.isSome_iff_exists.1 hlive
  obtain ⟨⟨lineup, -, h⟩, -⟩ := snapshot_traversed hrun hp .full
  have hsnapshot := h .backward
  rw [run'_of_ok hsnapshot.capture, Option.some.injEq] at hshown
  exact ⟨hshown ▸ hsnapshot, hvisits⟩

end Desk

end BufferPool
