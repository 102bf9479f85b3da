import BufferPool.Proofs.Buffer.Writing
import BufferPool.Proofs.Desk.Migration

/-!
# Writing through a handle

At every scene a write through a handle is all or nothing. When it is refused the world is as it was;
otherwise one buffer has the bytes behind its write position, and nothing else is different. The two
halves of a write can also be done one after the other on the world: between them nothing can go
wrong, so that it is never left with bytes that were staged only.
-/

namespace BufferPool

open PoolM World

variable {σ : Type} {w w' : World σ} {b : BufferId} {me : Thread} {bytes first second : List UInt8}
  {buffer : Buffer}

namespace PoolM

/-- Stages bytes in a buffer and commits what was staged there. -/
def stageAndCommit (b : BufferId) (me : Thread) (bytes : List UInt8) :
    PoolM σ (Except WriteError Unit) := do
  match ← stage b me bytes with
  | .ok () => commit b me (UInt64.ofNat bytes.length)
  | .error e => return .error e

/-- The commit finds the buffer as the stage has left it, and does not fail. -/
theorem stageAndCommit_eq_write (hb : b < w.cells.size) (horder : (w.buffer b).InOrder) :
    (stageAndCommit b me bytes : PoolM σ _) w = write b me bytes w := by
  cases hstage : (w.buffer b).stage me bytes with
  | error e =>
      have hwrite : (w.buffer b).write me bytes = .error e := by
        rw [Buffer.write, hstage]
        rfl
      rw [stageAndCommit, bind_of_ok _ (stage_of_error hstage), write_of_error hwrite]
      rfl
  | ok staged =>
      obtain ⟨buffer, hcommit, hwrite⟩ := Buffer.commit_of_staged hstage
      have hthere : (w.modifyBuffer b fun _ => staged).buffer b = staged :=
        buffer_modifyBuffer_self _ hb
      rw [stageAndCommit, bind_of_ok _ (stage_of_ok horder hstage), write_of_ok horder hwrite]
      dsimp only
      rw [commit_of_ok (by rw [hthere]; exact hcommit), modifyBuffer_modifyBuffer]

/-- One write of all bytes leaves the same world as one write of each part. -/
theorem write_append_iff (hb : b < w.cells.size) (h : (w.buffer b).InOrder) :
    (write b me (first ++ second) : PoolM σ _) w = .ok (.ok ()) w' ↔
      ∃ mid, (write b me first : PoolM σ _) w = .ok (.ok ()) mid ∧
        (write b me second : PoolM σ _) mid = .ok (.ok ()) w' := by
  have hthere : ∀ x : Buffer, (w.modifyBuffer b fun _ => x).buffer b = x :=
    fun x => buffer_modifyBuffer_self _ hb
  constructor
  · intro hwhole
    obtain ⟨buffer, hwrite, rfl⟩ := write_eq_ok hwhole
    obtain ⟨mid, hfirst, hsecond⟩ := h.write_append_iff.1 hwrite
    have horder : mid.InOrder := ((h.writesWhole me first).written mid hfirst).inOrder
    rw [← hthere mid] at hsecond horder
    refine ⟨_, write_of_ok h hfirst, ?_⟩
    rw [write_of_ok horder hsecond, modifyBuffer_modifyBuffer]
  · rintro ⟨_, hleft, hright⟩
    obtain ⟨mid, hfirst, rfl⟩ := write_eq_ok hleft
    obtain ⟨buffer, hsecond, rfl⟩ := write_eq_ok hright
    rw [hthere] at hsecond
    rw [write_of_ok h (h.write_append_iff.2 ⟨mid, hfirst, hsecond⟩), modifyBuffer_modifyBuffer]

end PoolM

end BufferPool

namespace BufferPool.Desk

open PoolM World

/-- How writing a string of bytes on one thread ends in a world. -/
structure AllOrNothing (w : World Desk) (b : BufferId) (me : Thread) (bytes : List UInt8) :
    Prop where
  whole : (w.buffer b).WritesWhole me bytes
  refused : ∀ e, (w.buffer b).write me bytes = .error e →
    (PoolM.write b me bytes : DeskM _) w = .ok (.error e) w
  done : ∀ buffer, (w.buffer b).write me bytes = .ok buffer →
    (PoolM.write b me bytes : DeskM _) w = .ok (.ok ()) (w.modifyBuffer b fun _ => buffer) ∧
      (w.modifyBuffer b fun _ => buffer).buffer b = buffer ∧
      ∀ other, other ≠ b → (w.modifyBuffer b fun _ => buffer).buffer other = w.buffer other
  in_place : (stageAndCommit b me bytes : DeskM _) w = PoolM.write b me bytes w
  in_parts : ∀ first second, bytes = first ++ second → ∀ w',
    (PoolM.write b me bytes : DeskM _) w = .ok (.ok ()) w' ↔
      ∃ mid, (PoolM.write b me first : DeskM _) w = .ok (.ok ()) mid ∧
        (PoolM.write b me second : DeskM _) mid = .ok (.ok ()) w'

/-- Whatever the state of a buffer and whichever thread writes, a write is refused if and only if
the thread does not own the buffer, or owns it and there is no room for all bytes. Then nothing has
changed. Otherwise the bytes stand behind the old write position, which has moved behind them, and
everything else is as it was. The commit never fails after the stage has succeeded, and the bytes may
just as well be written in two parts. -/
theorem writes_are_atomic {profile : Profile} {format : Format} {maker : Supply} {s : Scene}
    (hs : (Scene.empty profile format maker).Reaches s) :
    (∀ b : Buffer, b.InOrder → ∀ me bytes, b.WritesWhole me bytes) ∧
    ∀ b < s.world.cells.size, ∀ me bytes, AllOrNothing s.world b me bytes := by
  have hkept : s.Kept := Scene.Reaches.kept (kept_empty profile format maker) hs
  refine ⟨fun b h => h.writesWhole, fun b hb me bytes => ?_⟩
  have horder := hkept.inOrder_buffer b
  refine ⟨horder.writesWhole me bytes, fun e => write_of_error, fun buffer hwrite => ?done,
    stageAndCommit_eq_write hb horder, ?in_parts⟩
  case done =>
    exact ⟨write_of_ok horder hwrite, buffer_modifyBuffer_self _ hb,
      fun other hne => buffer_modifyBuffer_of_ne _ _ hne⟩
  case in_parts =>
    rintro first second rfl w'
    exact write_append_iff hb horder

/-- A buffer with 4090 bytes has room for six bytes, which can be written three by three. Seven are
refused. -/
theorem almost_full_buffer_written :
    let w := performAll 0 0 [.build .standard false, .obtain .provideAcquired 100 none (some "a"),
      .onBuffer (.named "a") (.write (List.replicate 4090 7))]
      (.empty .checked .plain (.within none) .empty)
    (∃ w', (PoolM.write 0 0 [1, 2, 3, 4, 5, 6] : DeskM _) w = .ok (.ok ()) w' ∧
      (w'.buffer 0).pos.toNat = 4096 ∧
      ∃ mid, (PoolM.write 0 0 [1, 2, 3] : DeskM _) w = .ok (.ok ()) mid ∧
        (PoolM.write 0 0 [4, 5, 6] : DeskM _) mid = .ok (.ok ()) w') ∧
    (PoolM.write 0 0 [1, 2, 3, 4, 5, 6, 7] : DeskM _) w = .ok (.error (.insufficientSpace 7 6)) w ∧
    (PoolM.write 0 1 [] : DeskM _) w = .ok (.error .notAcquired) w := by
  intro w
  have hrun : (Scene.empty .checked .plain (.within none)).Reaches ⟨w, []⟩ :=
    reaches_performAll 0 0 _ _
  have hlive : 0 < w.cells.size := by decide +kernel
  have howner : (w.buffer 0).owner = some 0 := by decide +kernel
  have hroom : (w.buffer 0).room = 6 := by decide +kernel
  have hpos : (w.buffer 0).pos.toNat = 4090 := by decide +kernel
  clear_value w
  obtain ⟨-, hwrites⟩ := writes_are_atomic hrun
  refine ⟨?fits, ?full, ?other⟩
  case fits =>
    have h := hwrites 0 hlive 0 [1, 2, 3, 4, 5, 6]
    dsimp only at h
    obtain ⟨buffer, hwrite⟩ := h.whole.ok_iff.2 ⟨howner, Nat.le_of_eq hroom.symm⟩
    obtain ⟨hrun', hthere, -⟩ := h.done buffer hwrite
    refine ⟨_, hrun', ?_, (h.in_parts [1, 2, 3] [4, 5, 6] rfl _).1 hrun'⟩
    rw [hthere, (h.whole.written buffer hwrite).pos, hpos]
    rfl
  case full =>
    have h := hwrites 0 hlive 0 [1, 2, 3, 4, 5, 6, 7]
    dsimp only at h
    exact h.refused _ ((h.whole.insufficientSpace_iff 7 6).2
      ⟨howner, by rw [hroom]; decide, rfl, by rw [hroom]; rfl⟩)
  case other =>
    have h := hwrites 0 hlive 1 []
    dsimp only at h
    exact h.refused _ (h.whole.notAcquired_iff.2 (by rw [howner]; decide))

end BufferPool.Desk
