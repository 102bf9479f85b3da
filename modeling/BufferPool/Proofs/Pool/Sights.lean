import BufferPool.Proofs.Pool.Frame
import BufferPool.Proofs.World.Acts
import BufferPool.Proofs.World.Triple

/-!
# What can be seen of a pool

The record of a pool holds its arena, with the slots, the lanes and the places of all buffers, what is
allocated, and what its heap and its rule remember. Together with what the pool has told, that is all
there is to be seen of it. An operation that names no other pool than some of the others skirts it.
-/

namespace BufferPool

variable {σ α β : Type}

/-- The event tells something of the pool. A payload goes back whenever its last reference is dropped,
whoever drops it, and so that tells nothing of the pool for which it was granted. -/
def Event.tellsOf (q : PoolId) : Event → Bool
  | .freed .. => false
  | .granted p .. | .refused p _ | .unserved p _ | .allocated p .. | .deallocated p .. | .published p ..
  | .inserted p .. | .kept p _ | .consulted p .. | .noted p _ => p == q

theorem Event.tellsOf_of_ne {p q : PoolId} (hne : p ≠ q) {e : Event} (he : e.tellsOf q = (p == q)) :
    e.tellsOf q = false := by
  rw [he]
  exact beq_eq_false_iff_ne.2 hne

structure Sight where
  pool : Option Pool
  /-- What the pool has told, the latest first. -/
  told : List Event

namespace World

variable {p q : PoolId}

/-- What can be seen of a pool. -/
def sight (w : World σ) (q : PoolId) : Sight := ⟨w.pools[q]?, w.events.filter (·.tellsOf q)⟩

@[simp] theorem sight_emit (w : World σ) {e : Event} (he : e.tellsOf q = false) :
    (w.emit e).sight q = w.sight q := by
  simp [sight, emit, he]

@[simp] theorem sight_modifyPool (w : World σ) (f : Pool → Pool) (hne : p ≠ q) :
    (w.modifyPool p f).sight q = w.sight q := by
  rw [sight, pools_modifyPool_of_ne hne.symm]
  rfl

/-- A pool that is added comes behind those that are there. -/
theorem sight_push (w : World σ) (pool : Pool) (hq : q < w.pools.size) :
    ({ w with pools := w.pools.push pool } : World σ).sight q = w.sight q := by
  simp [sight, Array.getElem?_push, Nat.ne_of_lt hq]

@[simp] theorem sight_modifyBuffer (w : World σ) (b : BufferId) (f : Buffer → Buffer) :
    (w.modifyBuffer b f).sight q = w.sight q := by
  rfl

@[simp] theorem sight_retain (w : World σ) (b : BufferId) : (w.retain b).sight q = w.sight q := by
  rfl

@[simp] theorem sight_drop (w : World σ) (b : BufferId) : (w.drop b).sight q = w.sight q := by
  unfold drop
  cases w.cells[b]? with
  | none => rfl
  | some c =>
      dsimp only
      split_ifs
      · exact sight_emit _ rfl
      · rfl

@[simp] theorem sight_dropAll (w : World σ) (handles : List Handle) :
    (w.dropAll handles).sight q = w.sight q := by
  induction handles generalizing w with
  | nil => rfl
  | cons h rest ih => exact (ih (w.drop h.buffer)).trans (sight_drop w h.buffer)

@[simp] theorem sight_hold (w : World σ) (handles : List Handle) :
    (w.hold handles).sight q = w.sight q := by
  change (handles.foldl (fun w h => w.retain h.buffer) w).sight q = w.sight q
  induction handles generalizing w with
  | nil => rfl
  | cons h rest ih => exact (ih (w.retain h.buffer)).trans (sight_retain w h.buffer)

@[simp] theorem sight_letGo (w : World σ) : w.letGo.sight q = w.sight q := by
  unfold letGo
  cases w.held with
  | nil => rfl
  | cons handles outer => exact sight_dropAll w handles

end World

namespace PoolM

open World

variable {p q : PoolId} {b : BufferId}

theorem Keeps.onFault {I : World σ → Prop} {act : PoolM σ α} {cleanUp : World σ → World σ}
    (h : Keeps I act) (hc : ∀ w, I w → I (cleanUp w)) : Keeps I (onFault cleanUp act) := by
  intro w hI
  have hw := h w hI
  cases hr : act w with
  | ok a w' =>
      rw [leaves_of_ok hr] at hw
      rw [leaves_of_ok (onFault_of_ok hr)]
      exact hw
  | error fault w' =>
      rw [leaves_of_error hr] at hw
      rw [leaves_of_error (onFault_of_error hr)]
      exact hc w' hw

/-- The operation changes nothing that can be seen of the pool, however it ends. -/
def Skirts (q : PoolId) (act : PoolM σ α) : Prop := ∀ s, Keeps (fun w => w.sight q = s) act

namespace Skirts

variable {act : PoolM σ α} {next : α → PoolM σ β}

theorem sight_leaves (h : Skirts q act) (w : World σ) : (act.leaves w).sight q = w.sight q :=
  h _ w rfl

theorem of_leaves (h : ∀ w, (act.leaves w).sight q = w.sight q) : Skirts q act :=
  fun _ w hw => (h w).trans hw

/-- Whatever is known of a pool by its sight is still known afterwards. -/
theorem triple (h : Skirts q act) (S : Sight → Prop) :
    Triple (fun w => S (w.sight q)) act (fun _ w => S (w.sight q)) (fun w => S (w.sight q)) := by
  apply Triple.of_leaves
  intro w hw
  rw [h.sight_leaves w]
  exact hw

theorem of_triple (h : ∀ s, Triple (fun w => w.sight q = s) act (fun _ w => w.sight q = s)
    (fun w => w.sight q = s)) : Skirts q act :=
  fun s _ hw => (h s).leaves hw

theorem pure (a : α) : Skirts (σ := σ) q (Pure.pure a) := fun _ => .pure a

theorem throw (fault : Fault) : Skirts (α := α) (σ := σ) q (throw fault) := fun _ => .throw fault

theorem get : Skirts (σ := σ) q MonadState.get := fun _ => .get

theorem modify {f : World σ → World σ} (h : ∀ w, (f w).sight q = w.sight q) : Skirts q (modify f) :=
  of_leaves h

/-- An operation that begins by looking at the world. -/
theorem of_get {next : World σ → PoolM σ α} (h : ∀ w, ((next w).leaves w).sight q = w.sight q) :
    Skirts q (MonadState.get >>= next) :=
  of_leaves h

theorem bind (h : Skirts q act) (hn : ∀ a, Skirts q (next a)) : Skirts q (act >>= next) :=
  fun s => (h s).bind fun a => hn a s

theorem map (h : Skirts q act) (f : α → β) : Skirts q (f <$> act) := h.bind fun a => pure (f a)

theorem onFault {cleanUp : World σ → World σ} (h : Skirts q act)
    (hc : ∀ w, (cleanUp w).sight q = w.sight q) : Skirts q (onFault cleanUp act) :=
  fun s => (h s).onFault fun w hw => (hc w).trans hw

theorem owning (h : Skirts q act) : Skirts q (owning b act) := h.onFault fun w => sight_drop w b

end Skirts

theorem skirts_expect (met : Bool) (expectation : Expectation) :
    Skirts (σ := σ) q (expect met expectation) := by
  apply Skirts.get.bind
  intro w
  split_ifs
  · exact .throw _
  · exact .pure _

theorem skirts_emit {e : Event} (he : e.tellsOf q = false) : Skirts (σ := σ) q (emit e) :=
  .modify fun w => sight_emit w he

theorem skirts_getBuffer (b : BufferId) : Skirts (σ := σ) q (getBuffer b) := .of_leaves fun _ => rfl

theorem skirts_modifyBuffer (b : BufferId) (f : Buffer → Buffer) :
    Skirts (σ := σ) q (modifyBuffer b f) :=
  .modify fun w => sight_modifyBuffer w b f

theorem skirts_retain (b : BufferId) : Skirts (σ := σ) q (retain b) :=
  .modify fun w => sight_retain w b

theorem skirts_drop (b : BufferId) : Skirts (σ := σ) q (drop b) := .modify fun w => sight_drop w b

theorem skirts_getPool (p : PoolId) : Skirts (σ := σ) q (getPool p) := by
  apply Skirts.get.bind
  intro w
  cases w.pool? p with
  | none => exact .throw _
  | some pool => exact .pure _

/-- Work on a buffer is nothing that can be seen of a pool. -/
theorem Skirts.of_work {act : PoolM σ α} (h : ∀ w, ∃ b acts, act.leaves w = w.work b acts) :
    Skirts q act := by
  apply Skirts.of_leaves
  intro w
  obtain ⟨b, acts, hl⟩ := h w
  rw [hl]
  exact sight_modifyBuffer w b _

theorem skirts_acquire (b : BufferId) (t : Thread) : Skirts (σ := σ) q (acquire b t) :=
  .of_work fun w => ⟨b, _, leaves_acquire b t w⟩

theorem skirts_tryAcquire (b : BufferId) (t : Thread) : Skirts (σ := σ) q (tryAcquire b t) :=
  .of_work fun w => ⟨b, _, leaves_tryAcquire b t w⟩

theorem skirts_reset (b : BufferId) (me : Thread) : Skirts (σ := σ) q (reset b me) :=
  .of_work fun w => ⟨b, _, leaves_reset b me w⟩

theorem skirts_markLease (b : BufferId) : Skirts (σ := σ) q (markLease b) :=
  .of_work fun w => ⟨b, _, leaves_markLease b w⟩

section Others

variable (hne : p ≠ q)
include hne

/-- What is told of one pool tells nothing of another. -/
theorem skirts_tell {e : Event} (he : e.tellsOf q = (p == q)) : Skirts (σ := σ) q (emit e) :=
  skirts_emit (Event.tellsOf_of_ne hne he)

theorem skirts_note (n : Note) : Skirts (σ := σ) q (note p n) := skirts_tell hne rfl

theorem skirts_modifyPool (f : Pool → Pool) : Skirts (σ := σ) q (modifyPool p f) :=
  .modify fun w => sight_modifyPool w f hne

theorem skirts_onArena (f : Arena BufferId → Except Arena.Fault (α × Arena BufferId)) :
    Skirts (σ := σ) q (onArena p f) := by
  apply (skirts_getPool p).bind
  intro pool
  cases f pool.arena with
  | error fault => exact .throw _
  | ok answer => exact (skirts_modifyPool hne _).bind fun _ => .pure _

theorem skirts_readArena (f : Arena BufferId → Except Arena.Fault α) :
    Skirts (σ := σ) q (readArena p f) :=
  skirts_onArena hne _

end Others

end PoolM

end BufferPool
