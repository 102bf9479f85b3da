import BufferPool.Desk.Run
import BufferPool.Proofs.Desk.CallChronicle

/-!
# Runs of a desk

A run is a sequence of steps from scene to scene. A step is a call on some thread, or one of the parts of
which longer operations are built: capturing a lane, visiting something that was captured, letting go of
it, and the critical sections of an allocation, between which a thread has a buffer that is not
registered. The steps of several threads may follow each other in any order, and a call that faults is a
step like any other.

Along a run it is counted how often each slot is seen to be vacated, which is when its generation
changes. The chronicle of the run never has a slot vacated more often than that.
-/

namespace BufferPool

open PoolM

/-- The generation of a slot of a pool. -/
def World.generation? {σ : Type} (w : World σ) (p : PoolId) (slot : Nat) : Option UInt64 :=
  (w.arena? p).bind (·.generationAt? slot)

namespace Desk

/-- What can happen without a buffer being made or registered on its own. -/
inductive WorldStep : World Desk → World Desk → Prop where
  | call (w : World Desk) (me : Thread) (p : PoolId) (call : Call) :
      WorldStep w ((call.perform me p).leaves w)
  | capture (w : World Desk) (p : PoolId) (lane : Lane) (dir : Direction) :
      WorldStep w ((Pool.capture (σ := Desk) p lane dir).leaves w)
  /-- Traversals may end in any order. -/
  | letGo {w : World Desk} {inner outer : List (List Handle)} {handles : List Handle}
      (h : w.held = inner ++ handles :: outer) :
      WorldStep w { w.dropAll handles with held := inner ++ outer }
  | enterVisit {w : World Desk} {handles : List Handle} {handle : Handle}
      (hheld : handles ∈ w.held) (hin : handle ∈ handles) : WorldStep w ((enterVisit handle).leaves w)
  | leaveVisit (w : World Desk) : WorldStep w (leaveVisit w)
  | suspend (w : World Desk) : WorldStep w (suspend.leaves w)
  | resume (w : World Desk) : WorldStep w (resume.leaves w)
  | leaveSuspended (w : World Desk) : WorldStep w (leaveSuspended w)
  | reclaim (w : World Desk) (p : PoolId) : WorldStep w ((Pool.reclaim (σ := Desk) p).leaves w)

/-- A world with the buffers that threads have made and not registered yet. -/
structure Scene where
  world : World Desk
  made : List BufferId

/-- A step of some thread, from one scene to the next. -/
inductive SceneStep : Scene → Scene → Prop where
  | world {w w' : World Desk} {made : List BufferId} (h : WorldStep w w') : SceneStep ⟨w, made⟩ ⟨w', made⟩
  | make {w w' : World Desk} {made : List BufferId} {p : PoolId} {requested : UInt64} {b : BufferId}
      (h : Pool.make p requested w = .ok (some b) w') : SceneStep ⟨w, made⟩ ⟨w', b :: made⟩
  /-- No buffer could be made. -/
  | makeNone {w : World Desk} {made : List BufferId} {p : PoolId} {requested : UInt64}
      (h : ∀ b w', Pool.make p requested w ≠ .ok (some b) w') :
      SceneStep ⟨w, made⟩ ⟨(Pool.make p requested).leaves w, made⟩
  | enroll {w : World Desk} {made : List BufferId} {b : BufferId} (p : PoolId) (name : String)
      (hb : b ∈ made) :
      SceneStep ⟨w, made⟩ ⟨PoolM.leaves (Pool.enroll p b >>= store name) w, made.erase b⟩

/-- How often the slots of the pools were vacated. -/
abbrev Vacations := PoolId → Nat → Nat

/-- The slot was vacated less often than a generation can count, so no two of its keys are the same. No
execution reaches this bound: with one vacation every nanosecond, it takes more than five centuries. -/
def Vacations.Countable (n : Vacations) (p : PoolId) (slot : Nat) : Prop := n p slot < 2 ^ 64

/-- Whether a slot of a pool that stayed open has another generation now. -/
def vacated (w w' : World Desk) (p : PoolId) (slot : Nat) : Bool :=
  match w.generation? p slot, w'.generation? p slot with
  | some g, some g' => g != g'
  | _, _ => false

inductive Run (start : Scene) : Vacations → Scene → Prop where
  | refl : Run start (fun _ _ => 0) start
  | step {n : Vacations} {s s' : Scene} (h : Run start n s) (hm : SceneStep s s') :
      Run start (fun p i => n p i + (vacated s.world s'.world p i).toNat) s'

/-- Several calls on one thread, all for the same pool. -/
def performAll (me : Thread) (p : PoolId) : List Call → World Desk → World Desk
  | [], w => w
  | call :: calls, w => performAll me p calls ((call.perform me p).leaves w)

/-- A call is seen to vacate a slot at most once. -/
theorem Run.performAll {start : Scene} {w : World Desk} {made : List BufferId} {n : Vacations}
    (h : Run start n ⟨w, made⟩) (me : Thread) (p : PoolId) (calls : List Call) :
    ∃ n', Run start n' ⟨performAll me p calls w, made⟩ ∧
      ∀ q i, n' q i ≤ n q i + calls.length := by
  induction calls generalizing w n with
  | nil => exact ⟨n, h, fun _ _ => Nat.le_refl _⟩
  | cons call calls ih =>
      obtain ⟨n', hrun, hn'⟩ := ih (h.step (.world (.call w me p call)))
      refine ⟨n', hrun, fun q i => ?_⟩
      have hle := hn' q i
      dsimp only at hle
      have hone := Bool.toNat_le (vacated w ((call.perform me p).leaves w) q i)
      rw [List.length_cons]
      omega

theorem mem_roots {d : Desk} {g : Handle} :
    g ∈ d.roots ↔ g ∈ d.handles.map (·.2) ∨
      g ∈ d.present.toList.map (·.handle) ∨ g ∈ d.suspended.map (·.handle) := by
  unfold roots
  rw [List.mem_append, List.map_append, List.mem_append]

theorem WorldStep.updates {w w' : World Desk} (hm : WorldStep w w') {c : Chronicle} (h : Fits c w) :
    ∃ c', c.Updates c' ∧ Fits c' w' := by
  have hroots : ∀ g ∈ w.client.roots, c.Known g := h.roots
  cases hm with
  | call me p call =>
      obtain ⟨c', ht, hfit, -⟩ := evolves_call me p call c w h trivial
      exact ⟨c', ht, hfit⟩
  | capture p lane dir =>
      obtain ⟨c', rfl, hfit, -⟩ := Pool.evolves_capture p lane dir c w h trivial
      exact ⟨c, .refl c, hfit⟩
  | @letGo inner outer handles hheld =>
      have hq := h.quiet (World.quiet_dropAll w handles)
      refine ⟨c, .refl c, hq.unbuilt, hq.arena, hq.closed, hq.cells, hq.reserved, fun gs hgs => ?_,
        hq.roots⟩
      apply h.held gs
      rw [hheld]
      rcases List.mem_append.1 hgs with hgs | hgs
      · exact List.mem_append_left _ hgs
      · exact List.mem_append_right _ (List.mem_cons_of_mem _ hgs)
  | @enterVisit handles handle hheld hin =>
      refine ⟨c, .refl c, (h.quiet (World.quiet_retain w handle.buffer)).withDesk fun g hg => ?_⟩
      rcases mem_roots.1 hg with hg | hg | hg
      · exact hroots g (mem_roots.2 (.inl hg))
      · rw [List.mem_singleton.1 hg]
        exact h.held handles hheld handle hin
      · exact hroots g (mem_roots.2 (.inr (.inr hg)))
  | leaveVisit =>
      refine ⟨c, .refl c, ?_⟩
      unfold Desk.leaveVisit
      cases w.client.present with
      | none => exact h
      | some visit =>
          apply Fits.quiet _ (World.quiet_drop _ _)
          apply h.withDesk
          intro g hg
          rcases mem_roots.1 hg with hg | hg | hg
          · exact hroots g (mem_roots.2 (.inl hg))
          · exact nomatch hg
          · exact hroots g (mem_roots.2 (.inr (.inr hg)))
  | suspend =>
      refine ⟨c, .refl c, h.withDesk fun g hg => ?_⟩
      rcases mem_roots.1 hg with hg | hg | hg
      · exact hroots g (mem_roots.2 (.inl hg))
      · exact nomatch hg
      · rw [List.map_append, List.mem_append] at hg
        exact hroots g (mem_roots.2 (.inr hg))
  | resume =>
      refine ⟨c, .refl c, h.withDesk fun g hg => ?_⟩
      rcases mem_roots.1 hg with hg | hg | hg
      · exact hroots g (mem_roots.2 (.inl hg))
      · obtain ⟨visit, hv, rfl⟩ := List.mem_map.1 hg
        have hhead := List.mem_of_mem_head? (Option.mem_toList.1 hv)
        exact hroots _ (mem_roots.2 (.inr (.inr (List.mem_map_of_mem hhead))))
      · obtain ⟨visit, hv, rfl⟩ := List.mem_map.1 hg
        have htail := List.mem_of_mem_tail hv
        exact hroots _ (mem_roots.2 (.inr (.inr (List.mem_map_of_mem htail))))
  | leaveSuspended =>
      refine ⟨c, .refl c, ?_⟩
      apply Fits.quiet _ (World.quiet_dropAll _ _)
      apply h.withDesk
      intro g hg
      rcases mem_roots.1 hg with hg | hg | hg
      · exact hroots g (mem_roots.2 (.inl hg))
      · exact hroots g (mem_roots.2 (.inr (.inl hg)))
      · exact nomatch hg

  | reclaim p =>
      obtain ⟨c', hv, hfit, -⟩ := Pool.evolves_reclaimAll p c w h trivial
      exact ⟨c', hv.updates, hfit⟩

/-- The chronicle fits and reserves what was made. -/
structure FitsScene (c : Chronicle) (s : Scene) : Prop where
  fits : Fits c s.world
  reserved : ∀ b, c.reserved b ↔ b ∈ s.made
  nodup : s.made.Nodup

/-- Every step takes the past along, and may reserve a buffer before or give a reservation up. -/
theorem SceneStep.updates {s s' : Scene} (hm : SceneStep s s') {c : Chronicle} (h : FitsScene c s) :
    ∃ m c' : Chronicle, m.ledger = c.ledger ∧ m.closed = c.closed ∧ m.Updates c' ∧ FitsScene c' s' := by
  cases hm with
  | world hs =>
      obtain ⟨c', ht, hfit⟩ := hs.updates h.fits
      refine ⟨c, c', rfl, rfl, ht, hfit, ?_, h.nodup⟩
      rw [ht.reserved]
      exact h.reserved
  | @make w w' made p requested b hmake =>
      obtain ⟨c', rfl, hfit, hnew⟩ := Pool.evolves_make p requested c w h.fits trivial
      rw [leaves_of_ok hmake] at hfit
      have hb : New b c w' := hnew (some b) w' hmake b rfl
      let c' := c.reserve (fun b' => b' = b ∨ c.reserved b') fun b' hb' => by
        rcases hb' with rfl | hb'
        · exact hb.1.unborn
        · exact c.unborn b' hb'
      refine ⟨c', c', rfl, rfl, .refl c', ⟨hfit.unbuilt, hfit.arena, hfit.closed, hfit.cells, ?_,
        hfit.held, hfit.roots⟩, fun b' => ?_, List.nodup_cons.2 ⟨?_, h.nodup⟩⟩
      · intro b' hb'
        rcases hb' with rfl | hb'
        · exact hb.2
        · exact hfit.reserved b' hb'
      · rw [List.mem_cons, ← h.reserved]
        rfl
      · rw [← h.reserved]
        exact hb.1.unreserved
  | @makeNone w made p requested hnone =>
      obtain ⟨c', rfl, hfit, -⟩ := Pool.evolves_make p requested c w h.fits trivial
      exact ⟨c, c, rfl, rfl, .refl c, hfit, h.reserved, h.nodup⟩
  | @enroll w made b p name hmade =>
      have hres : c.reserved b := (h.reserved b).2 hmade
      let m := c.reserve (fun b' => b' ≠ b ∧ c.reserved b') fun b' hb' => c.unborn b' hb'.2
      have hfit : Fits m w := ⟨h.fits.unbuilt, h.fits.arena, h.fits.closed, h.fits.cells,
        fun b' hb' => h.fits.reserved b' hb'.2, h.fits.held, h.fits.roots⟩
      have hnew : New b m w := ⟨⟨c.unborn b hres, fun hb => hb.1 rfl⟩, h.fits.reserved b hres⟩
      obtain ⟨c', hs, hfit', -⟩ :=
        (Pool.evolves_enroll p b).bind_eq (fun handle => evolves_store name handle) m w hfit hnew
      refine ⟨m, c', rfl, rfl, hs.updates, hfit', fun b' => ?_, h.nodup.erase b⟩
      rw [hs.reserved, h.nodup.mem_erase_iff, ← h.reserved]
      rfl

theorem fits_empty (profile : Profile) (format : Format) (maker : Supply) :
    Fits .blank (.empty profile format maker Desk.empty) := by
  refine ⟨fun _ _ => rfl, fun p a ha => ?_, fun p => ?_, nofun, nofun, nofun, nofun⟩
  · simp [World.arena?, World.pool?, World.empty] at ha
  · simp [Chronicle.blank, World.empty]

/-- The chronicle fits, and no slot was vacated more often than was counted. -/
structure Counted (c : Chronicle) (n : Vacations) (s : Scene) : Prop extends FitsScene c s where
  age : ∀ p a, s.world.arena? p = some a → ∀ i, (c.ledger p).age i ≤ n p i

theorem generation?_of_lt {c : Chronicle} {w : World Desk} {p : PoolId} {a : Arena BufferId} {i : Nat}
    (h : Fits c w) (ha : w.arena? p = some a) (hi : i < a.slots.size) :
    w.generation? p i = some (UInt64.ofNat ((c.ledger p).age i)) := by
  obtain ⟨g, hg⟩ := Option.isSome_iff_exists.1 (Arena.isSome_generationAt?.2 hi)
  rw [World.generation?, ha, Option.bind_some, hg, (h.arena p a ha).2.generation i g hg]

theorem ofNat_ne_ofNat_succ (n : Nat) : UInt64.ofNat n ≠ UInt64.ofNat (n + 1) := by
  intro h
  have hn := congrArg UInt64.toNat h
  rw [UInt64.toNat_ofNat', UInt64.toNat_ofNat'] at hn
  omega

/-- A slot that is vacated is counted. -/
theorem Counted.updated {c m c' : Chronicle} {n : Vacations} {s s' : Scene} (h : Counted c n s)
    (hledger : m.ledger = c.ledger) (hclosed : m.closed = c.closed) (ht : m.Updates c')
    (hscene : FitsScene c' s') :
    c.Continues c' ∧ Counted c' (fun p i => n p i + (vacated s.world s'.world p i).toNat) s' := by
  have hcont : c.Continues c' := by
    refine ⟨fun p i e b hb => ht.continues.tenant p i e b (hledger ▸ hb), fun p i => ?_⟩
    rw [← hledger]
    exact ht.continues.age p i
  refine ⟨hcont, hscene, fun p a' ha' i => ?_⟩
  have hupdate := ht.age p i
  rw [hledger] at hupdate
  cases ha : s.world.arena? p with
  | none =>
      -- The pool is new, because a closed one does not come back.
      have hopen : ¬c'.closed p := by
        rw [hscene.fits.closed, ha']
        exact fun hc => nomatch hc.2
      have hsize : s.world.pools.size ≤ p := by
        apply Nat.le_of_not_lt
        intro hlt
        apply hopen
        apply ht.closed
        rw [hclosed]
        exact (h.fits.closed p).2 ⟨hlt, ha⟩
      rw [h.fits.unbuilt p hsize] at hupdate
      rcases hupdate with hage | ⟨-, hocc⟩
      · rw [hage]
        exact Nat.zero_le _
      · exact nomatch hocc
  | some a =>
      have hle := h.age p a ha i
      rcases hupdate with hage | ⟨hage, hocc⟩
      · rw [hage]
        exact Nat.le_add_right_of_le hle
      · obtain ⟨b, hb⟩ := Option.isSome_iff_exists.1 hocc
        have hlt : ∀ {k : Chronicle} {v : World Desk} {d : Arena BufferId}, Fits k v →
            v.arena? p = some d → (∃ e, (k.ledger p).tenant i e = some b) → i < d.slots.size := by
          intro k v d hk hd he
          obtain ⟨e, he⟩ := he
          apply Nat.lt_of_not_le
          intro hge
          rw [((hk.arena p d hd).2.absent i hge).2] at he
          exact nomatch he
        have hg := generation?_of_lt h.fits ha (hlt h.fits ha ⟨_, hb⟩)
        have hg' := generation?_of_lt hscene.fits ha'
          (hlt hscene.fits ha' ⟨_, hcont.tenant _ _ _ _ hb⟩)
        have hvac : vacated s.world s'.world p i = true := by
          unfold vacated
          rw [hg, hg', hage]
          exact bne_iff_ne.2 (ofNat_ne_ofNat_succ _)
        rw [hage, hvac]
        exact Nat.succ_le_succ hle

theorem Counted.step {c : Chronicle} {n : Vacations} {s s' : Scene} (h : Counted c n s)
    (hm : SceneStep s s') :
    ∃ c', c.Continues c' ∧
      Counted c' (fun p i => n p i + (vacated s.world s'.world p i).toNat) s' := by
  obtain ⟨m, c', hledger, hclosed, ht, hscene⟩ := hm.updates h.toFitsScene
  exact ⟨c', h.updated hledger hclosed ht hscene⟩

theorem Counted.run {c : Chronicle} {n n' : Vacations} {s s' : Scene} (h : Counted c n s)
    (hrun : Run s n' s') :
    ∃ c', c.Continues c' ∧ Counted c' (fun p i => n p i + n' p i) s' := by
  induction hrun with
  | refl => exact ⟨c, .refl c, h⟩
  | step _ hm ih =>
      obtain ⟨c₁, hc₁, h₁⟩ := ih
      obtain ⟨c₂, hc₂, h₂⟩ := h₁.step hm
      refine ⟨c₂, hc₁.trans hc₂, h₂.toFitsScene, fun p a ha i => ?_⟩
      have hle := h₂.age p a ha i
      dsimp only at hle ⊢
      omega

end Desk

end BufferPool
