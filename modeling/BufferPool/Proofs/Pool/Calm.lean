import BufferPool.Pool.Traversal
import BufferPool.Proofs.Pool.WarrantedSteps

/-!
# Calm operations

Counting references, telling of things, and asking a heap or a retention rule change no arena and no
content, and put nothing into a lane. This module goes through the operations of that kind.
-/

namespace BufferPool

variable {σ α β : Type}

namespace World

theorem calm_cells {w w' : World σ} (hp : w'.pools = w.pools) (hs : w.cells.size ≤ w'.cells.size)
    (hb : ∀ b, b < w.cells.size → w'.buffer b = w.buffer b)
    (he : ∃ added : List Event, (∀ e ∈ added, e.isListing = false) ∧ w'.events = added ++ w.events)
    (hcl : w'.client = w.client) (hh : w'.held = w.held) : Calm w w' := by
  refine ⟨⟨fun p => ?_, hs, hb, he⟩, hcl, hh⟩
  rw [arena?, pool?, hp]
  rfl

theorem calm_emit (w : World σ) {e : Event} (he : e.isListing = false) : Calm w (w.emit e) :=
  calm_cells rfl (Nat.le_refl _) (fun _ _ => rfl) ⟨[e], by simpa using he, rfl⟩ rfl rfl

theorem calm_retain (w : World σ) (b : BufferId) : Calm w (w.retain b) :=
  calm_cells rfl (by simp) (fun b' _ => w.buffer_retain b b') ⟨[], nofun, rfl⟩ rfl rfl

theorem calm_drop (w : World σ) (b : BufferId) : Calm w (w.drop b) := by
  have hevents : ∃ added : List Event, (∀ e ∈ added, e.isListing = false) ∧
      (w.drop b).events = added ++ w.events := by
    unfold drop
    cases w.cells[b]? with
    | none => exact ⟨[], nofun, rfl⟩
    | some c =>
        dsimp only
        split_ifs
        · exact ⟨[.freed c.home b c.tag c.buffer.capacity], by simp [Event.isListing], rfl⟩
        · exact ⟨[], nofun, rfl⟩
  have hquiet := quiet_drop w b
  exact ⟨⟨hquiet.arena, hquiet.cells, fun b' _ => w.buffer_drop b b', hevents⟩, hquiet.client,
    hquiet.held⟩

theorem calm_dropAll (w : World σ) (handles : List Handle) : Calm w (w.dropAll handles) := by
  induction handles generalizing w with
  | nil => exact .refl w
  | cons h rest ih => exact (calm_drop w h.buffer).trans (ih _)

theorem calm_foldl_retain (w : World σ) (handles : List Handle) :
    Calm w (handles.foldl (fun w h => w.retain h.buffer) w) := by
  induction handles generalizing w with
  | nil => exact .refl w
  | cons h rest ih => exact (calm_retain w h.buffer).trans (ih _)

/-- Holding is harmless, but more is held then. -/
theorem harmless_hold (w : World σ) (handles : List Handle) : Harmless w (w.hold handles) := by
  have hcalm := calm_foldl_retain w handles
  exact ⟨hcalm.arena, hcalm.size, hcalm.buffer, hcalm.events⟩

theorem calm_modifyPool (w : World σ) (p : PoolId) (f : Pool → Pool)
    (hlive : ∀ pool, (f pool).live = pool.live) (harena : ∀ pool, (f pool).arena = pool.arena) :
    Calm w (w.modifyPool p f) := by
  refine ⟨⟨fun q => ?_, Nat.le_refl _, fun _ _ => rfl, [], nofun, rfl⟩, rfl, rfl⟩
  exact map_pool?_modifyPool w p q hlive harena

end World

namespace PoolM

open World

/-- An operation that is calm however it ends. -/
def Calm (act : PoolM σ α) : Prop := ∀ w, World.Calm w (act.leaves w)

namespace Calm

variable {act : PoolM σ α} {next : α → PoolM σ β}

theorem pure (a : α) : Calm (σ := σ) (Pure.pure a) := fun w => .refl w

theorem throw (fault : Fault) : Calm (α := α) (σ := σ) (throw fault) := fun w => .refl w

theorem get : Calm (σ := σ) MonadState.get := fun w => .refl w

theorem modify {f : World σ → World σ} (h : ∀ w, World.Calm w (f w)) : Calm (modify f) := h

theorem bind (h : Calm act) (hn : ∀ a, Calm (next a)) : Calm (act >>= next) :=
  fun w => leaves_bind (fun hw hw' => hw.trans hw') (h w) hn

/-- An operation that begins by looking at the world. -/
theorem of_get {next : World σ → PoolM σ α} (h : ∀ w, World.Calm w ((next w).leaves w)) :
    Calm (MonadState.get >>= next) := h

end Calm

theorem calm_expect (met : Bool) (expectation : Expectation) :
    Calm (σ := σ) (expect met expectation) := by
  intro w
  rw [leaves_expect]
  exact .refl w

theorem calm_emit {e : Event} (he : e.isListing = false) : Calm (σ := σ) (emit e) :=
  fun w => World.calm_emit w he

theorem calm_note (p : PoolId) (n : Note) : Calm (σ := σ) (note p n) := calm_emit rfl

theorem calm_getPool (p : PoolId) : Calm (σ := σ) (getPool p) := by
  intro w
  rw [leaves_getPool]
  exact .refl w

theorem calm_modifyPool (p : PoolId) (f : Pool → Pool)
    (hlive : ∀ pool, (f pool).live = pool.live) (harena : ∀ pool, (f pool).arena = pool.arena) :
    Calm (modifyPool (σ := σ) p f) :=
  .modify fun w => World.calm_modifyPool w p f hlive harena

theorem calm_getBuffer (b : BufferId) : Calm (σ := σ) (getBuffer b) := fun w => .refl w

theorem calm_retain (b : BufferId) : Calm (σ := σ) (PoolM.retain b) := fun w => World.calm_retain w b

theorem calm_drop (b : BufferId) : Calm (σ := σ) (PoolM.drop b) := fun w => World.calm_drop w b

theorem calm_readArena (p : PoolId) (f : Arena BufferId → Except Arena.Fault α) :
    Calm (σ := σ) (readArena p f) := by
  intro w
  rw [leaves_readArena]
  exact .refl w

end PoolM

namespace Pool

open PoolM

theorem calm_retire (p : PoolId) (b : BufferId) : Calm (σ := σ) (retire p b) :=
  (calm_getBuffer b).bind fun _ =>
    (calm_modifyPool p _ (by intro; rfl) (by intro; rfl)).bind fun _ =>
      (calm_emit rfl).bind fun _ => calm_note p _

theorem calm_retireAll (p : PoolId) (buffers : List BufferId) :
    Calm (σ := σ) (retireAll p buffers) := by
  induction buffers with
  | nil => exact .pure _
  | cons b rest ih => exact (calm_retire p b).bind fun _ => (calm_drop b).bind fun _ => ih

/-- A new buffer is no change of one that is there. -/
theorem calm_requestPayload (p : PoolId) (capacity : UInt64) :
    Calm (σ := σ) (requestPayload p capacity) := by
  apply (calm_getPool p).bind
  intro pool
  refine (calm_modifyPool p _ (by intro; rfl) (by intro; rfl)).bind fun _ => ?_
  dsimp only
  by_cases hg : pool.heap.supply.grants capacity = true
  · rw [if_pos hg]
    apply Calm.of_get
    intro w
    refine World.calm_cells rfl ?_ (fun b hb => World.buffer_congr (Array.getElem?_push_lt hb |>.trans
      (Array.getElem?_eq_getElem hb).symm)) ⟨[_], ?_, rfl⟩ rfl rfl
    · change w.cells.size ≤ (w.cells.push _).size
      simp
    · intro e he
      rw [List.mem_singleton.1 he]
      rfl
  · rw [if_neg hg]
    refine (calm_emit ?_).bind fun _ => .pure _
    split_ifs <;> rfl

theorem calm_prepare (capacity : UInt64) : Calm (σ := σ) (prepare capacity) := by
  apply Calm.of_get
  intro w
  cases w.format with
  | plain => exact .refl w
  | metered =>
      exact World.calm_cells rfl (Nat.le_refl _) (fun _ _ => rfl) ⟨[], nofun, rfl⟩ rfl rfl

theorem calm_make (p : PoolId) (requested : UInt64) : Calm (σ := σ) (make p requested) := by
  apply (calm_getPool p).bind
  intro pool
  split
  · exact (calm_expect _ _).bind fun _ => (calm_note p _).bind fun _ => .pure _
  · apply (calm_requestPayload p _).bind
    intro obtained
    split
    · exact (calm_note p _).bind fun _ => .pure _
    · apply (calm_prepare _).bind
      intro ready
      split_ifs
      · exact (calm_getBuffer _).bind fun _ =>
          (calm_modifyPool p _ (by intro; rfl) (by intro; rfl)).bind fun _ =>
            (calm_emit rfl).bind fun _ => (calm_note p _).bind fun _ => .pure _
      · exact (calm_drop _).bind fun _ => .pure _

theorem calm_checkOwner (p : PoolId) (h : Handle) : Calm (σ := σ) (checkOwner p h) := by
  unfold checkOwner
  split_ifs
  · exact .throw _
  · exact .pure _

theorem calm_inLane (p : PoolId) (lane : Lane) (h : Handle) : Calm (σ := σ) (inLane p lane h) :=
  (calm_checkOwner p h).bind fun _ => (calm_getPool p).bind fun _ => .pure _

theorem calm_count (p : PoolId) (lane : Lane) : Calm (σ := σ) (count p lane) :=
  (calm_getPool p).bind fun _ => .pure _

theorem calm_expectIdle (b : BufferId) : Calm (σ := σ) (expectIdle b) :=
  (calm_getBuffer b).bind fun _ => (calm_expect _ _).bind fun _ =>
    (calm_expect _ _).bind fun _ => calm_expect _ _

theorem calm_consult (p : PoolId) : Calm (σ := σ) (consult p) :=
  ((calm_getPool p).bind fun _ => .pure _).bind fun _ => (calm_getPool p).bind fun _ =>
    (calm_modifyPool p _ (by intro; rfl) (by intro; rfl)).bind fun _ =>
      (calm_emit rfl).bind fun _ => .pure _

end Pool

end BufferPool
