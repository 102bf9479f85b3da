import BufferPool.Proofs.Desk.ThreadSteps
import BufferPool.Proofs.Pool.Frame

/-!
# The cursors of all buffers

What a run does to a buffer is a sequence of acts from the time when the buffer was fresh, and calls on
the buffer are acts of it. So the cursors of every buffer are in order at every scene, and say how
much was committed and flushed since its content was last forgotten.
-/

namespace BufferPool.Desk

open PoolM World
open Buffer (Act Tally)

variable {s : Scene}

theorem Scene.Kept.exists_acts (h : s.Kept) {b : BufferId} {c : Cell}
    (hc : s.world.cells[b]? = some c) :
    ∃ capacity acts, c.buffer = ((Tally.start s.world.format capacity).perform acts).buffer := by
  obtain ⟨k, hk⟩ := h
  obtain ⟨capacity, acts, hfresh⟩ := hk.agrees.past.fresh b c hc
  exact ⟨capacity, acts, by rw [Tally.buffer_perform]; exact hfresh⟩

/-- The cursors of a buffer at a scene. -/
theorem Scene.Kept.inOrder (h : s.Kept) {b : BufferId} {c : Cell}
    (hc : s.world.cells[b]? = some c) : c.buffer.InOrder := by
  obtain ⟨capacity, acts, hacts⟩ := h.exists_acts hc
  rw [hacts]
  exact ((Tally.balanced_start _ capacity).perform acts).inOrder

/-- Even a number under which there is no buffer has cursors that are in order. -/
theorem Scene.Kept.inOrder_buffer (h : s.Kept) (b : BufferId) : (s.world.buffer b).InOrder := by
  cases hc : s.world.cells[b]? with
  | none =>
      rw [buffer, hc]
      exact ⟨UInt64.le_refl 0, UInt64.le_refl 0⟩
  | some c =>
      rw [buffer_of_getElem? hc]
      exact h.inOrder hc

/-- No position that is looked up at a scene is found to be astray. -/
theorem Scene.Kept.not_astray (h : s.Kept) (b : BufferId) :
    ¬(s.world.buffer b).Astray s.world.profile :=
  (h.inOrder_buffer b).not_astray _

/-- The answer to a write says whether it was refused. -/
theorem answer_settle (b : BufferId) (outcome : Buffer → Except WriteError Buffer) (w : World Desk) :
    ∃ reply w', (replyTo <$> (getBuffer b >>= fun buffer => settle b (outcome buffer))) w =
        .ok reply w' ∧ ((outcome (w.buffer b)).isOk = true ↔ reply = .nothing) := by
  have hget : (getBuffer b : DeskM Buffer) w = .ok (w.buffer b) w := rfl
  rw [map_eq_pure_bind, bind_assoc, bind_of_ok _ hget]
  cases outcome (w.buffer b) with
  | error e => exact ⟨.refused (.write e), w, rfl, iff_of_false nofun nofun⟩
  | ok buffer => exact ⟨.nothing, w.modifyBuffer b fun _ => buffer, rfl, iff_of_true rfl rfl⟩

/-- What an act commits can be told from the answer to the call. -/
theorem answer_commit (me : Thread) (handle : Handle) (count : UInt64) (w : World Desk) :
    ∃ reply w', (BufferCall.commit count).perform me handle w = .ok reply w' ∧
      (Act.commit me count).commits (w.buffer handle.buffer) =
        if reply = .nothing then count.toNat else 0 := by
  obtain ⟨reply, w', hrun, hok⟩ := answer_settle handle.buffer (·.commit me count) w
  refine ⟨reply, w', hrun, ?_⟩
  simp only [Act.commits, hok]

theorem answer_write (me : Thread) {handle : Handle} (bytes : List UInt8) {w : World Desk}
    (h : ¬(w.buffer handle.buffer).Astray w.profile) :
    ∃ reply w', (BufferCall.write bytes).perform me handle w = .ok reply w' ∧
      (Act.write me bytes).commits (w.buffer handle.buffer) =
        if reply = .nothing then bytes.length else 0 := by
  obtain ⟨reply, w', hrun, hok⟩ := answer_settle handle.buffer (·.write me bytes) w
  refine ⟨reply, w', (map_congr replyTo (write_eq h me bytes)).trans hrun, ?_⟩
  simp only [Act.commits, hok]

theorem answer_flush (me : Thread) (handle : Handle) (w : World Desk) :
    ∃ w', BufferCall.flush.perform me handle w =
      .ok (.number (Act.flush.flushes (w.buffer handle.buffer))) w' :=
  ⟨_, rfl⟩

theorem spares_place (p : PoolId) (handle : Handle) (placing : Placing) :
    Spares (placing.perform p handle) := by
  cases placing with
  | insert lane => exact Pool.spares_insert p lane handle
  | remove lane => exact Pool.spares_remove p lane handle
  | move source => exact Pool.spares_move p source handle

theorem spares_give (p : PoolId) (handle : Handle) (giving : Giving) :
    Spares (giving.perform p handle) := by
  cases giving with
  | deallocate => exact Pool.spares_deallocate p handle
  | release lane => exact Pool.spares_release p lane handle
  | giveBack lane => exact Pool.spares_giveBack p lane handle

/-- How the buffers of a scene have become what they are, and how they go on. -/
structure Scene.ChangedByActs (s : Scene) : Prop where
  /-- Every buffer was fresh once, and acts have been done to it since. -/
  past : ∀ (b : BufferId) (c : Cell), s.world.cells[b]? = some c → ∃ capacity acts,
    c.buffer = ((Tally.start s.world.format capacity).perform acts).buffer
  /-- All that happens to it later are more acts. -/
  later : ∀ s', s.Reaches s' → ∀ (b : BufferId) (c : Cell), s.world.cells[b]? = some c →
    ∃ c' acts, s'.world.cells[b]? = some c' ∧ c'.buffer = c.buffer.perform acts
  /-- A call on a buffer is one act of it, or none, and changes nothing else. -/
  call : ∀ me handle call, (BufferCall.perform me handle call).leaves s.world =
    s.world.work handle.buffer (call.acts me s.world.profile (s.world.buffer handle.buffer))
  /-- A call that commits bytes answers nothing, and commits none if it complains. -/
  commit : ∀ me handle count, ∃ reply w',
    (BufferCall.commit count).perform me handle s.world = .ok reply w' ∧
      (Act.commit me count).commits (s.world.buffer handle.buffer) =
        if reply = .nothing then count.toNat else 0
  write : ∀ me handle bytes, ∃ reply w',
    (BufferCall.write bytes).perform me handle s.world = .ok reply w' ∧
      (Act.write me bytes).commits (s.world.buffer handle.buffer) =
        if reply = .nothing then bytes.length else 0
  /-- A flush answers how many bytes it flushes. -/
  flush : ∀ me handle, ∃ w', BufferCall.flush.perform me handle s.world =
    .ok (.number (Act.flush.flushes (s.world.buffer handle.buffer))) w'
  /-- Carrying over is an act of the target, and none of the source. -/
  carryOver : ∀ old new me used requested,
    (PoolM.carryOver old new me used requested).leaves s.world = s.world.work new
      (if old = new then [] else [.carryOver (s.world.buffer old) me used requested])
  /-- To a buffer it makes no difference which lane it is in. -/
  place : ∀ p handle placing b,
    ((Placing.perform p handle placing).leaves s.world).buffer b = s.world.buffer b
  /-- Nor does it whether it is registered. -/
  give : ∀ p handle giving b,
    ((Giving.perform p handle giving).leaves s.world).buffer b = s.world.buffer b

theorem Scene.Kept.changedByActs (h : s.Kept) : s.ChangedByActs where
  past _ _ hc := h.exists_acts hc
  later s' hr b c hc := by
    obtain ⟨c', hc', hreworked⟩ := (Scene.Reaches.follows h hr).cells b c hc
    obtain ⟨acts, hacts⟩ := hreworked.buffer
    exact ⟨c', acts, hc', hacts⟩
  call me handle call := leaves_onBuffer me handle call s.world
  commit me handle count := answer_commit me handle count s.world
  write me handle bytes := answer_write me bytes (h.not_astray handle.buffer)
  flush me handle := answer_flush me handle s.world
  carryOver old new me used requested := by
    rw [leaves_carryOver]
    simp only [h.not_astray, or_false]
  place p handle placing := (spares_place p handle placing).buffer_leaves s.world
  give p handle giving := (spares_give p handle giving).buffer_leaves s.world

/-- Whatever acts are done to a fresh buffer, its cursors stay in order. So their differences are what
they seem, and what was committed since the content was last forgotten was flushed since then, or is
not flushed yet. The buffers at any scene of a run are such buffers. -/
theorem cursors_in_order {profile : Profile} {format : Format} {maker : Supply} {s : Scene}
    (hs : (Scene.empty profile format maker).Reaches s) :
    (∀ format capacity acts, ((Tally.start format capacity).perform acts).Exact) ∧ s.ChangedByActs ∧
      ∀ (b : BufferId) (c : Cell), s.world.cells[b]? = some c → c.buffer.InOrder := by
  have hkept : s.Kept := Scene.Reaches.kept (kept_empty profile format maker) hs
  refine ⟨fun format capacity acts => ?_, hkept.changedByActs, fun b c hc => hkept.inOrder hc⟩
  exact ((Tally.balanced_start format capacity).perform acts).exact

/-- Eleven bytes are committed, five of them are flushed, and six are left. -/
theorem cursors_after_flush :
    let w := performAll 0 0 [.build .standard false, .obtain .provideAcquired 100 none (some "a"),
      .onBuffer (.named "a") (.write [104, 101, 108, 108, 111]), .onBuffer (.named "a") .flush,
      .onBuffer (.named "a") (.write [32, 119, 111, 114, 108, 100])] (.empty .checked .plain
        (.within none) .empty)
    (w.buffer 0).InOrder ∧ (w.buffer 0).pos = 11 ∧ (w.buffer 0).unflushedSize = 6 ∧
      (w.buffer 0).freeSize = 4085 := by
  intro w
  have hrun : (Scene.empty .checked .plain (.within none)).Reaches ⟨w, []⟩ :=
    reaches_performAll 0 0 _ _
  obtain ⟨-, -, horder⟩ := cursors_in_order hrun
  have hsize : 0 < w.cells.size := by decide +kernel
  have hcell := Array.getElem?_eq_getElem hsize
  have hbuffer : w.buffer 0 = w.cells[0].buffer := by
    rw [buffer, hcell]
    rfl
  refine ⟨?_, by decide +kernel⟩
  rw [hbuffer]
  exact horder 0 _ hcell

end BufferPool.Desk
