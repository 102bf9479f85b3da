import BufferPool.Proofs.World.Outcome
import BufferPool.Pool.Content
import BufferPool.Sweep

/-!
# Operations that leave the arenas alone

Most steps of most operations change the content of buffers, count references, or tell somebody
something, and leave every arena as it is. Such a step is quiet. What is built from quiet steps alone
is quiet, however it ends, and this module goes through the operations of that kind.
-/

namespace BufferPool

variable {σ α β : Type}

namespace World

/-- The arenas stay as they are, and so do the things that are held and the settings. Only the cells,
the heaps, the counts and the events may change. -/
structure Quiet (w w' : World σ) : Prop where
  pools : w'.pools.size = w.pools.size
  arena : ∀ p, w'.arena? p = w.arena? p
  minimum : ∀ p, w'.minimum? p = w.minimum? p
  cells : w.cells.size ≤ w'.cells.size
  held : w'.held = w.held
  client : w'.client = w.client
  profile : w'.profile = w.profile
  format : w'.format = w.format

theorem Quiet.refl (w : World σ) : Quiet w w :=
  ⟨rfl, fun _ => rfl, fun _ => rfl, Nat.le_refl _, rfl, rfl, rfl, rfl⟩

theorem Quiet.trans {w w' w'' : World σ} (h : Quiet w w') (h' : Quiet w' w'') : Quiet w w'' :=
  ⟨h'.pools.trans h.pools, fun p => (h'.arena p).trans (h.arena p),
    fun p => (h'.minimum p).trans (h.minimum p), Nat.le_trans h.cells h'.cells,
    h'.held.trans h.held, h'.client.trans h.client, h'.profile.trans h.profile,
    h'.format.trans h.format⟩

/-- Only cells, counts and events differ. -/
theorem Quiet.of_pools {w w' : World σ} (hp : w'.pools = w.pools) (hc : w.cells.size ≤ w'.cells.size)
    (hh : w'.held = w.held) (hcl : w'.client = w.client) (hpr : w'.profile = w.profile)
    (hf : w'.format = w.format) : Quiet w w' := by
  refine ⟨by rw [hp], fun p => ?_, fun p => ?_, hc, hh, hcl, hpr, hf⟩
  · rw [arena?, pool?, hp]
    rfl
  · rw [minimum?, pool?, hp]
    rfl

theorem quiet_modifyPool (w : World σ) (p : PoolId) (f : Pool → Pool)
    (hlive : ∀ pool, (f pool).live = pool.live) (harena : ∀ pool, (f pool).arena = pool.arena)
    (hmin : ∀ pool, (f pool).minimum = pool.minimum) : Quiet w (w.modifyPool p f) := by
  refine ⟨size_modifyPool w p f, fun q => ?_, fun q => ?_, Nat.le_refl _, rfl, rfl, rfl, rfl⟩
  · exact map_pool?_modifyPool w p q hlive harena
  · exact map_pool?_modifyPool w p q hlive hmin

theorem quiet_drop (w : World σ) (b : BufferId) : Quiet w (w.drop b) := by
  unfold drop
  cases w.cells[b]? with
  | none => exact .refl w
  | some c =>
      dsimp only
      split_ifs
      · exact .of_pools rfl (by simp [emit]) rfl rfl rfl rfl
      · exact .of_pools rfl (by simp) rfl rfl rfl rfl

theorem quiet_retain (w : World σ) (b : BufferId) : Quiet w (w.retain b) :=
  .of_pools rfl (by simp [retain]) rfl rfl rfl rfl

theorem quiet_modifyBuffer (w : World σ) (b : BufferId) (f : Buffer → Buffer) :
    Quiet w (w.modifyBuffer b f) :=
  .of_pools rfl (by simp [modifyBuffer]) rfl rfl rfl rfl

theorem quiet_dropAll (w : World σ) (handles : List Handle) : Quiet w (w.dropAll handles) := by
  induction handles generalizing w with
  | nil => exact .refl w
  | cons h rest ih => exact (quiet_drop w h.buffer).trans (ih _)

theorem quiet_foldl_retain (w : World σ) (handles : List Handle) :
    Quiet w (handles.foldl (fun w h => w.retain h.buffer) w) := by
  induction handles generalizing w with
  | nil => exact .refl w
  | cons h rest ih => exact (quiet_retain w h.buffer).trans (ih _)

end World

namespace PoolM

open World

/-- An operation that leaves the arenas alone. -/
def Quiet (act : PoolM σ α) : Prop := ∀ w, World.Quiet w (act.leaves w)

namespace Quiet

theorem pure (a : α) : Quiet (σ := σ) (Pure.pure a) := fun w => .refl w

theorem throw (fault : Fault) : Quiet (α := α) (σ := σ) (throw fault) := fun w => .refl w

theorem bind {act : PoolM σ α} {next : α → PoolM σ β} (h : Quiet act) (hn : ∀ a, Quiet (next a)) :
    Quiet (act >>= next) :=
  fun w => leaves_bind (fun hw hw' => hw.trans hw') (h w) hn

theorem get : Quiet (σ := σ) (MonadState.get) := fun w => .refl w

/-- An operation that begins by looking at the world. -/
theorem of_get {next : World σ → PoolM σ α} (h : ∀ w, World.Quiet w ((next w).leaves w)) :
    Quiet (MonadState.get >>= next) := fun w => h w

theorem modify {f : World σ → World σ} (h : ∀ w, World.Quiet w (f w)) : Quiet (modify f) :=
  fun w => h w

theorem onFault {cleanUp : World σ → World σ} {act : PoolM σ α} (h : Quiet act)
    (hc : ∀ w, World.Quiet w (cleanUp w)) : Quiet (onFault cleanUp act) := by
  intro w
  have hw := h w
  unfold leaves at hw ⊢
  unfold PoolM.onFault
  cases hr : act w with
  | ok a w' =>
      rw [hr] at hw
      exact hw
  | error fault w' =>
      rw [hr] at hw
      exact hw.trans (hc w')

theorem owning {b : BufferId} {act : PoolM σ α} (h : Quiet act) : Quiet (owning b act) :=
  h.onFault fun w => quiet_drop w b

theorem map {act : PoolM σ α} (h : Quiet act) (f : α → β) : Quiet (f <$> act) :=
  h.bind fun a => pure (f a)

end Quiet

theorem quiet_expect (met : Bool) (expectation : Expectation) :
    Quiet (σ := σ) (expect met expectation) := by
  intro w
  rw [leaves_expect]
  exact .refl w

theorem quiet_emit (e : Event) : Quiet (σ := σ) (emit e) :=
  .modify fun _ => .of_pools rfl (Nat.le_refl _) rfl rfl rfl rfl

theorem quiet_note (p : PoolId) (n : Note) : Quiet (σ := σ) (note p n) := quiet_emit _

theorem quiet_getPool (p : PoolId) : Quiet (σ := σ) (getPool p) := by
  intro w
  rw [leaves_getPool]
  exact .refl w

theorem quiet_modifyPool (p : PoolId) (f : Pool → Pool)
    (hlive : ∀ pool, (f pool).live = pool.live) (harena : ∀ pool, (f pool).arena = pool.arena)
    (hmin : ∀ pool, (f pool).minimum = pool.minimum) : Quiet (PoolM.modifyPool (σ := σ) p f) :=
  .modify fun w => World.quiet_modifyPool w p f hlive harena hmin

theorem quiet_getBuffer (b : BufferId) : Quiet (σ := σ) (getBuffer b) := fun w => .refl w

theorem quiet_modifyBuffer (b : BufferId) (f : Buffer → Buffer) :
    Quiet (σ := σ) (PoolM.modifyBuffer b f) :=
  .modify fun w => World.quiet_modifyBuffer w b f

theorem quiet_retain (b : BufferId) : Quiet (σ := σ) (PoolM.retain b) :=
  .modify fun w => World.quiet_retain w b

theorem quiet_drop (b : BufferId) : Quiet (σ := σ) (PoolM.drop b) :=
  .modify fun w => World.quiet_drop w b

theorem quiet_readArena (p : PoolId) (f : Arena BufferId → Except Arena.Fault α) :
    Quiet (σ := σ) (readArena p f) := by
  intro w
  rw [leaves_readArena]
  exact .refl w

theorem quiet_acquire (b : BufferId) (t : Thread) : Quiet (σ := σ) (acquire b t) := by
  apply (quiet_getBuffer b).bind
  intro buffer
  split_ifs
  · exact quiet_modifyBuffer b _
  · exact .throw _

theorem quiet_tryAcquire (b : BufferId) (t : Thread) : Quiet (σ := σ) (tryAcquire b t) :=
  (quiet_getBuffer b).bind fun _ => (quiet_modifyBuffer b _).bind fun _ => .pure _

theorem quiet_release (b : BufferId) : Quiet (σ := σ) (PoolM.release b) := quiet_modifyBuffer b _

theorem quiet_reset (b : BufferId) (me : Thread) : Quiet (σ := σ) (reset b me) := by
  apply (quiet_getBuffer b).bind
  intro buffer
  split_ifs
  · exact quiet_modifyBuffer b _
  · exact .throw _

theorem quiet_markTransient (b : BufferId) : Quiet (σ := σ) (markTransient b) :=
  quiet_modifyBuffer b _

theorem quiet_markLease (b : BufferId) : Quiet (σ := σ) (markLease b) :=
  (quiet_getBuffer b).bind fun _ => (quiet_expect _ _).bind fun _ => quiet_modifyBuffer b _

theorem quiet_settle (b : BufferId) (outcome : Except WriteError Buffer) :
    Quiet (σ := σ) (settle b outcome) := by
  cases outcome with
  | ok buffer => exact (quiet_modifyBuffer b _).bind fun _ => .pure _
  | error e => exact .pure _

theorem quiet_settleAt (b : BufferId) (buffer : Buffer) (outcome : Except WriteError Buffer) :
    Quiet (σ := σ) (settleAt b buffer outcome) :=
  (quiet_expect _ _).bind fun _ => quiet_settle b outcome

theorem quiet_stage (b : BufferId) (me : Thread) (bytes : List UInt8) :
    Quiet (σ := σ) (stage b me bytes) :=
  (quiet_getBuffer b).bind fun buffer => quiet_settleAt b buffer _

theorem quiet_commit (b : BufferId) (me : Thread) (count : UInt64) :
    Quiet (σ := σ) (commit b me count) :=
  (quiet_getBuffer b).bind fun _ => quiet_settle b _

theorem quiet_write (b : BufferId) (me : Thread) (bytes : List UInt8) :
    Quiet (σ := σ) (write b me bytes) :=
  (quiet_getBuffer b).bind fun buffer => quiet_settleAt b buffer _

theorem quiet_read (b : BufferId) (me : Thread) : Quiet (σ := σ) (read b me) := by
  apply (quiet_getBuffer b).bind
  intro buffer
  split_ifs
  · exact (quiet_expect _ _).bind fun _ => .pure _
  · exact .throw _

theorem quiet_flush (b : BufferId) : Quiet (σ := σ) (flush b) :=
  (quiet_getBuffer b).bind fun _ => (quiet_modifyBuffer b _).bind fun _ => .pure _

theorem quiet_carryOver (old new : BufferId) (me : Thread) (used requested : UInt64) :
    Quiet (σ := σ) (carryOver old new me used requested) := by
  apply (quiet_getBuffer old).bind
  intro buffer
  apply (quiet_getBuffer new).bind
  intro target
  apply (quiet_expect _ _).bind
  intro _
  split
  · exact (quiet_expect _ _).bind fun _ => quiet_modifyBuffer new _
  · exact .throw _

end PoolM

namespace Pool

open PoolM

theorem quiet_retire (p : PoolId) (b : BufferId) : Quiet (σ := σ) (retire p b) :=
  (quiet_getBuffer b).bind fun _ =>
    (quiet_modifyPool p _ (by intro; rfl) (by intro; rfl) (by intro; rfl)).bind fun _ =>
      (quiet_emit _).bind fun _ => quiet_note p _

theorem quiet_retireAll (p : PoolId) (buffers : List BufferId) :
    Quiet (σ := σ) (retireAll p buffers) := by
  induction buffers with
  | nil => exact .pure _
  | cons b rest ih =>
      exact (quiet_retire p b).bind fun _ => (quiet_drop b).bind fun _ => ih

theorem quiet_requestPayload (p : PoolId) (capacity : UInt64) :
    Quiet (σ := σ) (requestPayload p capacity) := by
  apply (quiet_getPool p).bind
  intro pool
  refine (quiet_modifyPool p _ (by intro; rfl) (by intro; rfl) (by intro; rfl)).bind fun _ => ?_
  dsimp only
  by_cases hg : pool.heap.supply.grants capacity = true
  · rw [if_pos hg]
    apply Quiet.of_get
    intro w
    refine .of_pools rfl ?_ rfl rfl rfl rfl
    change w.cells.size ≤ (w.cells.push _).size
    simp
  · rw [if_neg hg]
    exact (quiet_emit _).bind fun _ => .pure _

theorem quiet_prepare (capacity : UInt64) : Quiet (σ := σ) (prepare capacity) := by
  apply Quiet.of_get
  intro w
  cases hf : w.format with
  | plain => exact .refl w
  | metered => exact .of_pools rfl (Nat.le_refl _) rfl rfl rfl hf.symm

theorem quiet_make (p : PoolId) (requested : UInt64) : Quiet (σ := σ) (make p requested) := by
  apply (quiet_getPool p).bind
  intro pool
  split
  · exact (quiet_expect _ _).bind fun _ => (quiet_note p _).bind fun _ => .pure _
  · apply (quiet_requestPayload p _).bind
    intro obtained
    split
    · exact (quiet_note p _).bind fun _ => .pure _
    · apply (quiet_prepare _).bind
      intro ready
      split_ifs
      · exact (quiet_getBuffer _).bind fun _ =>
          (quiet_modifyPool p _ (by intro; rfl) (by intro; rfl) (by intro; rfl)).bind fun _ =>
            (quiet_emit _).bind fun _ => (quiet_note p _).bind fun _ => .pure _
      · exact (quiet_drop _).bind fun _ => .pure _

theorem quiet_checkOwner (p : PoolId) (h : Handle) : Quiet (σ := σ) (checkOwner p h) := by
  unfold checkOwner
  split_ifs
  · exact .throw _
  · exact .pure _

theorem quiet_inLane (p : PoolId) (lane : Lane) (h : Handle) : Quiet (σ := σ) (inLane p lane h) :=
  (quiet_checkOwner p h).bind fun _ => (quiet_getPool p).bind fun _ => .pure _

theorem quiet_count (p : PoolId) (lane : Lane) : Quiet (σ := σ) (count p lane) :=
  (quiet_getPool p).bind fun _ => .pure _

theorem quiet_firstFit (size : UInt64) (t : Thread) (entries : List (Arena.Key × BufferId)) :
    Quiet (σ := σ) (firstFit size t entries) := by
  induction entries with
  | nil => exact .pure _
  | cons entry rest ih =>
      obtain ⟨key, b⟩ := entry
      apply (quiet_getBuffer b).bind
      intro buffer
      split_ifs
      · exact ih
      · apply (quiet_tryAcquire b t).bind
        intro won
        split_ifs
        · apply (quiet_getBuffer b).bind
          intro acquired
          split_ifs
          · exact .pure _
          · exact (PoolM.quiet_release b).bind fun _ => ih
        · exact ih

theorem quiet_find (p : PoolId) (size : UInt64) (t : Thread) : Quiet (σ := σ) (find p size t) := by
  apply (quiet_readArena p _).bind
  intro entries
  apply (quiet_firstFit size t entries).bind
  intro found
  split
  · exact .pure _
  · exact (quiet_note p _).bind fun _ => (quiet_retain _).bind fun _ => .pure _

theorem quiet_census (p : PoolId) : Quiet (σ := σ) (census p) :=
  (quiet_getPool p).bind fun _ => .pure _

theorem quiet_expectIdle (b : BufferId) : Quiet (σ := σ) (expectIdle b) :=
  (quiet_getBuffer b).bind fun _ => (quiet_expect _ _).bind fun _ =>
    (quiet_expect _ _).bind fun _ => quiet_expect _ _

theorem quiet_consult (p : PoolId) : Quiet (σ := σ) (consult p) :=
  (quiet_census p).bind fun _ => (quiet_getPool p).bind fun _ =>
    (quiet_modifyPool p _ (by intro; rfl) (by intro; rfl) (by intro; rfl)).bind fun _ =>
      (quiet_emit _).bind fun _ => .pure _

theorem quiet_makeLease (h : Handle) : Quiet (σ := σ) (makeLease h) :=
  (quiet_markTransient _).bind fun _ => quiet_markLease _

end Pool

namespace Sweep

open PoolM

theorem quiet_hold (s : Sweep) (me : Thread) (b : BufferId) : Quiet (σ := σ) (s.hold me b) := by
  apply (quiet_getBuffer b).bind
  intro buffer
  split_ifs
  · exact .pure _
  · exact quiet_tryAcquire b s.maker

theorem quiet_recycle (me : Thread) (b : BufferId) : Quiet (σ := σ) (recycle me b) :=
  (quiet_reset b me).bind fun _ => (quiet_getBuffer b).bind fun _ =>
    (quiet_expect _ _).bind fun _ => (quiet_getBuffer b).bind fun _ =>
      (quiet_expect _ _).bind fun _ => PoolM.quiet_release b

end Sweep

end BufferPool
