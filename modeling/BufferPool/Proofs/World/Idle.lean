import BufferPool.Proofs.Pool.Outcome
import BufferPool.Proofs.World.Acts

/-!
# Operations that only work on contents

Some operations get no buffer, give none up, and move none. All they do is work on the contents of
buffers, make remarks, and use up settings. They are idle as far as references and accounts go.

One world follows another if its cells are those of the other, with more acts done to their buffers,
and events were only added. Every operation leaves behind a world that follows.
-/

namespace BufferPool

variable {σ α β : Type}

/-- The buffer has gone through some acts; where its payload comes from has not changed. -/
structure Cell.Reworked (c c' : Cell) : Prop where
  buffer : ∃ acts, c'.buffer = c.buffer.perform acts
  home : c'.home = c.home
  tag : c'.tag = c.tag

namespace Cell.Reworked

theorem refl (c : Cell) : c.Reworked c := ⟨⟨[], rfl⟩, rfl, rfl⟩

theorem trans {c c' c'' : Cell} (h : c.Reworked c') (h' : c'.Reworked c'') : c.Reworked c'' := by
  obtain ⟨first, hfirst⟩ := h.buffer
  obtain ⟨second, hsecond⟩ := h'.buffer
  refine ⟨⟨first ++ second, ?_⟩, h'.home.trans h.home, h'.tag.trans h.tag⟩
  rw [Buffer.perform_append, ← hfirst]
  exact hsecond

end Cell.Reworked

/-- An event that is neither about the payload of a buffer nor about the accounts of a pool, and that
the listener of the pool is not told. -/
def Event.isRemark : Event → Bool
  | .refused .. | .unserved .. | .inserted .. | .kept .. | .consulted .. | .noted .. => true
  | _ => false

namespace World

/-- Nothing that was recorded is lost: cells keep their place, and events were added. -/
structure Follows (w w' : World σ) : Prop where
  cells : ∀ (b : BufferId) c, w.cells[b]? = some c → ∃ c', w'.cells[b]? = some c' ∧ c.Reworked c'
  events : w.events <:+ w'.events
  format : w'.format = w.format

theorem Follows.refl (w : World σ) : Follows w w :=
  ⟨fun _ c hc => ⟨c, hc, .refl c⟩, List.suffix_refl _, rfl⟩

theorem Follows.trans {w w' w'' : World σ} (h : Follows w w') (h' : Follows w' w'') :
    Follows w w'' := by
  refine ⟨fun b c hc => ?_, h.events.trans h'.events, h'.format.trans h.format⟩
  obtain ⟨c', hc', hr⟩ := h.cells b c hc
  obtain ⟨c'', hc'', hr'⟩ := h'.cells b c' hc'
  exact ⟨c'', hc'', hr.trans hr'⟩

/-- The total size of the buffers that a pool has counted, if it is set up and not closed. -/
def allocated? (w : World σ) (p : PoolId) : Option UInt64 := (w.pool? p).map (·.allocated)

theorem allocated?_setArena (w : World σ) (p q : PoolId) (arena : Arena BufferId) :
    (w.setArena p arena).allocated? q = w.allocated? q :=
  map_pool?_modifyPool w p q (by intro; rfl) (by intro; rfl)

/-- Only contents, settings and remarks differ. -/
structure Idle (w w' : World σ) : Prop where
  pools : w'.pools.size = w.pools.size
  arena : ∀ p, w'.arena? p = w.arena? p
  allocated : ∀ p, w'.allocated? p = w.allocated? p
  size : w'.cells.size = w.cells.size
  cells : ∀ (b : BufferId) c, w.cells[b]? = some c →
    ∃ c', w'.cells[b]? = some c' ∧ c.Reworked c' ∧ c'.refs = c.refs
  events : ∃ remarks : List Event,
    (∀ e ∈ remarks, e.isRemark = true) ∧ w'.events = remarks ++ w.events
  held : w'.held = w.held
  client : w'.client = w.client
  format : w'.format = w.format

theorem Idle.refl (w : World σ) : Idle w w :=
  ⟨rfl, fun _ => rfl, fun _ => rfl, rfl, fun _ c hc => ⟨c, hc, .refl c, rfl⟩, ⟨[], nofun, rfl⟩, rfl,
    rfl, rfl⟩

theorem Idle.trans {w w' w'' : World σ} (h : Idle w w') (h' : Idle w' w'') : Idle w w'' := by
  refine ⟨h'.pools.trans h.pools, fun p => (h'.arena p).trans (h.arena p),
    fun p => (h'.allocated p).trans (h.allocated p), h'.size.trans h.size, fun b c hc => ?_, ?_,
    h'.held.trans h.held, h'.client.trans h.client, h'.format.trans h.format⟩
  · obtain ⟨c', hc', hr, hrefs⟩ := h.cells b c hc
    obtain ⟨c'', hc'', hr', hrefs'⟩ := h'.cells b c' hc'
    exact ⟨c'', hc'', hr.trans hr', hrefs'.trans hrefs⟩
  · obtain ⟨first, hfirst, he⟩ := h.events
    obtain ⟨second, hsecond, he'⟩ := h'.events
    refine ⟨second ++ first, fun e hm => ?_, by rw [he', he, List.append_assoc]⟩
    rcases List.mem_append.1 hm with hm | hm
    · exact hsecond e hm
    · exact hfirst e hm

theorem Idle.follows {w w' : World σ} (h : Idle w w') : Follows w w' := by
  refine ⟨fun b c hc => ?_, ?_, h.format⟩
  · obtain ⟨c', hc', hr, -⟩ := h.cells b c hc
    exact ⟨c', hc', hr⟩
  · obtain ⟨remarks, -, he⟩ := h.events
    exact ⟨remarks, he.symm⟩

theorem Idle.refs {w w' : World σ} (h : Idle w w') (b : BufferId) : w'.refs b = w.refs b := by
  unfold World.refs
  cases hc : w.cells[b]? with
  | none =>
      have hb : w'.cells[b]? = none := by
        rw [Array.getElem?_eq_none_iff, h.size]
        exact Array.getElem?_eq_none_iff.1 hc
      rw [hb]
  | some c =>
      obtain ⟨c', hc', -, hrefs⟩ := h.cells b c hc
      rw [hc', Option.map_some, Option.map_some, hrefs]

theorem idle_work (w : World σ) (b : BufferId) (acts : List Buffer.Act) :
    Idle w (w.work b acts) := by
  refine ⟨rfl, fun _ => rfl, fun _ => rfl, size_modifyBuffer w b _, fun b' c hc => ?_,
    ⟨[], nofun, rfl⟩, rfl, rfl, rfl⟩
  rw [work, getElem?_modifyBuffer]
  split_ifs
  · rw [hc, Option.map_some]
    exact ⟨_, rfl, ⟨⟨acts, rfl⟩, rfl, rfl⟩, rfl⟩
  · exact ⟨c, hc, .refl c, rfl⟩

theorem idle_emit (w : World σ) {e : Event} (he : e.isRemark = true) : Idle w (w.emit e) :=
  ⟨rfl, fun _ => rfl, fun _ => rfl, rfl, fun _ c hc => ⟨c, hc, .refl c, rfl⟩,
    ⟨[e], by simpa using he, rfl⟩, rfl, rfl, rfl⟩

theorem idle_modifyPool (w : World σ) (p : PoolId) (f : Pool → Pool)
    (hlive : ∀ pool, (f pool).live = pool.live) (harena : ∀ pool, (f pool).arena = pool.arena)
    (hallocated : ∀ pool, (f pool).allocated = pool.allocated) : Idle w (w.modifyPool p f) := by
  refine ⟨size_modifyPool w p f, fun q => ?_, fun q => ?_, rfl,
    fun _ c hc => ⟨c, hc, .refl c, rfl⟩, ⟨[], nofun, rfl⟩, rfl, rfl, rfl⟩
  · exact map_pool?_modifyPool w p q hlive harena
  · exact map_pool?_modifyPool w p q hlive hallocated

end World

namespace PoolM

open World

/-- An operation that is idle however it ends. -/
def Idle (act : PoolM σ α) : Prop := ∀ w, World.Idle w (act.leaves w)

namespace Idle

theorem pure (a : α) : Idle (σ := σ) (Pure.pure a) := fun w => .refl w

theorem throw (fault : Fault) : Idle (α := α) (σ := σ) (throw fault) := fun w => .refl w

theorem get : Idle (σ := σ) (MonadState.get) := fun w => .refl w

theorem bind {act : PoolM σ α} {next : α → PoolM σ β} (h : Idle act) (hn : ∀ a, Idle (next a)) :
    Idle (act >>= next) :=
  fun w => leaves_bind (fun hw hw' => hw.trans hw') (h w) hn

theorem map {act : PoolM σ α} (h : Idle act) (f : α → β) : Idle (f <$> act) :=
  h.bind fun a => pure (f a)

end Idle

theorem idle_emit {e : Event} (he : e.isRemark = true) : Idle (σ := σ) (emit e) :=
  fun w => World.idle_emit w he

theorem idle_expect (met : Bool) (expectation : Expectation) :
    Idle (σ := σ) (expect met expectation) := by
  intro w
  rw [leaves_expect]
  exact .refl w

theorem idle_getPool (p : PoolId) : Idle (σ := σ) (getPool p) := by
  intro w
  rw [leaves_getPool]
  exact .refl w

theorem idle_getBuffer (b : BufferId) : Idle (σ := σ) (getBuffer b) := fun w => .refl w

theorem idle_readArena (p : PoolId) (f : Arena BufferId → Except Arena.Fault α) :
    Idle (σ := σ) (readArena p f) := by
  intro w
  rw [leaves_readArena]
  exact .refl w

theorem Idle.of_work {act : PoolM σ α} (h : ∀ w, ∃ b acts, act.leaves w = w.work b acts) :
    Idle act := by
  intro w
  obtain ⟨b, acts, hw⟩ := h w
  rw [hw]
  exact World.idle_work w b acts

theorem idle_act (b : BufferId) (a : Buffer.Act) :
    Idle (σ := σ) (modifyBuffer b fun buffer => a.apply buffer) :=
  .of_work fun _ => ⟨b, [a], rfl⟩

theorem idle_acquire (b : BufferId) (t : Thread) : Idle (σ := σ) (acquire b t) :=
  .of_work fun w => ⟨_, _, leaves_acquire b t w⟩

theorem idle_tryAcquire (b : BufferId) (t : Thread) : Idle (σ := σ) (tryAcquire b t) :=
  .of_work fun w => ⟨_, _, leaves_tryAcquire b t w⟩

theorem idle_release (b : BufferId) : Idle (σ := σ) (PoolM.release b) := idle_act b .release

theorem idle_reset (b : BufferId) (me : Thread) : Idle (σ := σ) (reset b me) :=
  .of_work fun w => ⟨_, _, leaves_reset b me w⟩

theorem idle_markTransient (b : BufferId) : Idle (σ := σ) (markTransient b) :=
  idle_act b .markTransient

theorem idle_markLease (b : BufferId) : Idle (σ := σ) (markLease b) :=
  .of_work fun w => ⟨_, _, leaves_markLease b w⟩

theorem idle_carryOver (old new : BufferId) (me : Thread) (used requested : UInt64) :
    Idle (σ := σ) (carryOver old new me used requested) :=
  .of_work fun w => ⟨_, _, leaves_carryOver old new me used requested w⟩

end PoolM

namespace Pool

open PoolM

theorem idle_checkOwner (p : PoolId) (h : Handle) : Idle (σ := σ) (checkOwner p h) := by
  unfold checkOwner
  split_ifs
  · exact .throw _
  · exact .pure _

theorem idle_inLane (p : PoolId) (lane : Lane) (h : Handle) : Idle (σ := σ) (inLane p lane h) :=
  (idle_checkOwner p h).bind fun _ => (idle_getPool p).bind fun _ => .pure _

theorem idle_firstFit (size : UInt64) (t : Thread) (entries : List (Arena.Key × BufferId)) :
    Idle (σ := σ) (firstFit size t entries) := by
  induction entries with
  | nil => exact .pure _
  | cons entry rest ih =>
      obtain ⟨key, b⟩ := entry
      apply (idle_getBuffer b).bind
      intro buffer
      split_ifs
      · exact ih
      · apply (idle_tryAcquire b t).bind
        intro won
        split_ifs
        · apply (idle_getBuffer b).bind
          intro acquired
          split_ifs
          · exact .pure _
          · exact (PoolM.idle_release b).bind fun _ => ih
        · exact ih

theorem idle_expectIdle (b : BufferId) : Idle (σ := σ) (expectIdle b) :=
  (idle_getBuffer b).bind fun _ => (idle_expect _ _).bind fun _ =>
    (idle_expect _ _).bind fun _ => idle_expect _ _

theorem idle_modifyPool (p : PoolId) (f : Pool → Pool)
    (hlive : ∀ pool, (f pool).live = pool.live) (harena : ∀ pool, (f pool).arena = pool.arena)
    (hallocated : ∀ pool, (f pool).allocated = pool.allocated) :
    Idle (PoolM.modifyPool (σ := σ) p f) :=
  fun w => World.idle_modifyPool w p f hlive harena hallocated

theorem idle_consult (p : PoolId) : Idle (σ := σ) (consult p) :=
  ((idle_getPool p).bind fun _ => .pure _).bind fun _ => (idle_getPool p).bind fun _ =>
    (idle_modifyPool p _ (by intro; rfl) (by intro; rfl) (by intro; rfl)).bind fun _ =>
      (idle_emit rfl).bind fun _ => .pure _

theorem idle_makeLease (h : Handle) : Idle (σ := σ) (makeLease h) :=
  (idle_markTransient _).bind fun _ => idle_markLease _

end Pool

namespace Sweep

open PoolM

theorem idle_hold (s : Sweep) (me : Thread) (b : BufferId) : Idle (σ := σ) (s.hold me b) := by
  apply (idle_getBuffer b).bind
  intro buffer
  split_ifs
  · exact .pure _
  · exact idle_tryAcquire b s.maker

theorem idle_recycle (me : Thread) (b : BufferId) : Idle (σ := σ) (recycle me b) :=
  (idle_reset b me).bind fun _ => (idle_getBuffer b).bind fun _ =>
    (idle_expect _ _).bind fun _ => (idle_getBuffer b).bind fun _ =>
      (idle_expect _ _).bind fun _ => PoolM.idle_release b

end Sweep

end BufferPool
