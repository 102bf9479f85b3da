import BufferPool.Pool.Content
import BufferPool.Proofs.Buffer.Cursors
import BufferPool.Proofs.World.Cells

/-!
# Operations on one buffer

What an operation on the content of one buffer leaves behind is the world in which an act was done to
that buffer, and nothing else was. This holds whether the operation answers, is refused or faults.
-/

namespace BufferPool

open Buffer (Act)

variable {σ α β : Type}

theorem Buffer.perform_append (b : Buffer) (first second : List Act) :
    b.perform (first ++ second) = (b.perform first).perform second :=
  List.foldl_append

namespace World

/-- It only matters what becomes of the buffer that is there. -/
theorem modifyBuffer_congr {w : World σ} {b : BufferId} {f g : Buffer → Buffer}
    (h : f (w.buffer b) = g (w.buffer b)) : w.modifyBuffer b f = w.modifyBuffer b g := by
  have hcells : w.cells.modify b (fun c => { c with buffer := f c.buffer }) =
      w.cells.modify b fun c => { c with buffer := g c.buffer } := by
    apply Array.ext_getElem?
    intro i
    rw [Array.getElem?_modify, Array.getElem?_modify]
    split_ifs with hi
    · cases hc : w.cells[i]? with
      | none => rfl
      | some c =>
          rw [buffer, hi, hc] at h
          exact congrArg (fun buffer => some { c with buffer := buffer }) h
    · rfl
  rw [modifyBuffer, hcells, modifyBuffer]

theorem modifyBuffer_self {w : World σ} {b : BufferId} {f : Buffer → Buffer}
    (h : f (w.buffer b) = w.buffer b) : w.modifyBuffer b f = w := by
  have hcells : w.cells.modify b (fun c => { c with buffer := c.buffer }) = w.cells := by
    apply Array.ext_getElem?
    intro i
    rw [Array.getElem?_modify]
    split_ifs
    · exact Option.map_id'
    · rfl
  rw [modifyBuffer_congr (g := id) h, modifyBuffer]
  exact congrArg (fun cells => { w with cells := cells }) hcells

theorem modifyBuffer_modifyBuffer (w : World σ) (b : BufferId) (f g : Buffer → Buffer) :
    (w.modifyBuffer b f).modifyBuffer b g = w.modifyBuffer b fun buffer => g (f buffer) := by
  have hcells : (w.cells.modify b fun c => { c with buffer := f c.buffer }).modify b
      (fun c => { c with buffer := g c.buffer }) =
        w.cells.modify b fun c => { c with buffer := g (f c.buffer) } := by
    apply Array.ext_getElem?
    intro i
    simp only [Array.getElem?_modify]
    split_ifs
    · exact Option.map_map ..
    · rfl
  rw [modifyBuffer, modifyBuffer, hcells]
  rfl

/-- Acts are done to one buffer. -/
def work (w : World σ) (b : BufferId) (acts : List Act) : World σ :=
  w.modifyBuffer b (·.perform acts)

theorem work_nil (w : World σ) (b : BufferId) : w.work b [] = w := modifyBuffer_self rfl

theorem work_singleton {w : World σ} {b : BufferId} {a : Act} {f : Buffer → Buffer}
    (h : a.apply (w.buffer b) = f (w.buffer b)) : w.work b [a] = w.modifyBuffer b f :=
  modifyBuffer_congr h

theorem work_append (w : World σ) (b : BufferId) (first second : List Act) :
    (w.work b first).work b second = w.work b (first ++ second) := by
  rw [work, work, modifyBuffer_modifyBuffer]
  exact modifyBuffer_congr (Buffer.perform_append _ first second).symm

/-- An act that is refused. -/
theorem work_of_eq {w : World σ} {b : BufferId} {a : Act}
    (h : a.apply (w.buffer b) = w.buffer b) : w.work b [a] = w :=
  modifyBuffer_self h

end World

namespace PoolM

open World

theorem leaves_map (act : PoolM σ α) (f : α → β) (w : World σ) :
    (f <$> act).leaves w = act.leaves w := by
  rw [map_eq_pure_bind, leaves]
  cases hr : act w with
  | ok a w' =>
      rw [bind_of_ok _ hr, leaves_of_ok hr]
      rfl
  | error fault w' => rw [bind_of_error _ hr, leaves_of_error hr]

theorem leaves_getBuffer_bind (b : BufferId) (next : Buffer → PoolM σ α) (w : World σ) :
    (getBuffer b >>= next).leaves w = (next (w.buffer b)).leaves w :=
  rfl

theorem leaves_acquire (b : BufferId) (t : Thread) (w : World σ) :
    (acquire b t).leaves w = w.work b [.acquire t] := by
  rw [acquire, leaves_getBuffer_bind]
  split_ifs with hfree
  · have hact : (Act.acquire t).apply (w.buffer b) = (w.buffer b).claim t := if_pos hfree
    exact (work_singleton (f := (·.claim t)) hact).symm
  · have hact : (Act.acquire t).apply (w.buffer b) = w.buffer b := if_neg hfree
    exact (work_of_eq hact).symm

theorem leaves_tryAcquire (b : BufferId) (t : Thread) (w : World σ) :
    (tryAcquire b t).leaves w = w.work b [.tryAcquire t] :=
  (work_singleton (f := fun _ => ((w.buffer b).tryAcquire t).2) rfl).symm

theorem leaves_release (b : BufferId) (w : World σ) :
    (PoolM.release b).leaves w = w.work b [.release] :=
  rfl

theorem leaves_reset (b : BufferId) (me : Thread) (w : World σ) :
    (reset b me).leaves w = w.work b [.reset me] := by
  rw [reset, leaves_getBuffer_bind]
  split_ifs with hmine
  · have hact : (Act.reset me).apply (w.buffer b) = (w.buffer b).reset := if_pos hmine
    exact (work_singleton (f := (·.reset)) hact).symm
  · have hact : (Act.reset me).apply (w.buffer b) = w.buffer b := if_neg hmine
    exact (work_of_eq hact).symm

theorem leaves_markTransient (b : BufferId) (w : World σ) :
    (markTransient b).leaves w = w.work b [.markTransient] :=
  rfl

/-- An expectation that is not met ends the operation in the checked profile. -/
theorem leaves_expect_bind (met : Bool) (expectation : Expectation) (next : PoolM σ α)
    (w : World σ) : (expect met expectation >>= fun _ => next).leaves w =
      if w.profile = .checked ∧ met = false then w else next.leaves w := by
  cases met with
  | true =>
      rw [if_neg fun h => Bool.noConfusion h.2, leaves, bind_of_ok _ (expect_true _ w)]
      rfl
  | false =>
      cases hp : w.profile with
      | checked => rw [if_pos ⟨rfl, rfl⟩, leaves, bind_of_error _ (expect_of_checked _ hp)]
      | unchecked =>
          rw [if_neg fun h => Profile.noConfusion h.1, leaves,
            bind_of_ok _ (expect_of_unchecked _ _ hp)]
          rfl

/-- Nothing comes of looking for a position that is not astray. -/
theorem expect_locates_bind {b : Buffer} {exempt : Bool} {w : World σ}
    (h : ¬(exempt = false ∧ b.Astray w.profile)) (next : PoolM σ α) :
    (expect (exempt || b.locates b.pos) .withinPayload >>= fun _ => next) w = next w := by
  cases hmet : exempt || b.locates b.pos with
  | true => rw [bind_of_ok _ (expect_true _ w)]
  | false =>
      obtain ⟨hexempt, hlocates⟩ := Bool.or_eq_false_iff.1 hmet
      have hprofile : w.profile = .unchecked := by
        cases hp : w.profile with
        | unchecked => rfl
        | checked => exact (h ⟨hexempt, hp, hlocates⟩).elim
      rw [bind_of_ok _ (expect_of_unchecked _ _ hprofile)]

/-- In the checked profile only a one-shot buffer becomes a lease. -/
theorem leaves_markLease (b : BufferId) (w : World σ) :
    (markLease b).leaves w =
      w.work b (if w.profile = .checked ∧ (w.buffer b).transient = false then []
        else [.markLease]) := by
  rw [markLease, leaves_getBuffer_bind, leaves_expect_bind]
  split_ifs
  · exact (work_nil w b).symm
  · rfl

/-- A write is one act, whether it is refused or not. -/
theorem leaves_settle {b : BufferId} {outcome : Buffer → Except WriteError Buffer} {a : Act}
    (ha : ∀ buffer, a.apply buffer = (outcome buffer).toOption.getD buffer) (w : World σ) :
    (getBuffer b >>= fun buffer => settle b (outcome buffer)).leaves w = w.work b [a] := by
  rw [leaves_getBuffer_bind]
  have hact := ha (w.buffer b)
  cases ho : outcome (w.buffer b) with
  | error e =>
      rw [ho] at hact
      exact (work_of_eq hact).symm
  | ok buffer =>
      rw [ho] at hact
      exact (work_singleton (f := fun _ => buffer) hact).symm

/-- A write that puts bytes at the write position is one act, too, unless the profile finds that the
position is astray. -/
theorem leaves_settleAt {b : BufferId} {outcome : Buffer → Except WriteError Buffer} {a : Act}
    (ha : ∀ buffer, a.apply buffer = (outcome buffer).toOption.getD buffer) (w : World σ) :
    (getBuffer b >>= fun buffer => settleAt b buffer (outcome buffer)).leaves w =
      w.work b (if (w.buffer b).Astray w.profile then [] else [a]) := by
  have hsettle := leaves_settle (b := b) ha w
  rw [leaves_getBuffer_bind] at hsettle ⊢
  rw [settleAt, leaves_expect_bind, hsettle]
  by_cases hastray : (w.buffer b).Astray w.profile
  · rw [if_pos hastray, work_nil]
    split_ifs with hmet
    · rfl
    · -- The write is refused before the position is looked at.
      have hrefused : (outcome (w.buffer b)).isOk = false := by
        cases hok : (outcome (w.buffer b)).isOk with
        | false => rfl
        | true => exact (hmet ⟨hastray.1, by rw [hok, hastray.2]; rfl⟩).elim
      refine work_of_eq ((ha _).trans ?_)
      cases ho : outcome (w.buffer b) with
      | error e => rfl
      | ok buffer => exact nomatch ho ▸ hrefused
  · rw [if_neg hastray, if_neg]
    rintro ⟨hprofile, hmet⟩
    exact hastray ⟨hprofile, (Bool.or_eq_false_iff.1 hmet).2⟩

/-- At a position that is not astray, the bytes are put as if nothing was looked for. -/
theorem settleAt_eq {b : BufferId} {buffer : Buffer} {w : World σ} (h : ¬buffer.Astray w.profile)
    (outcome : Except WriteError Buffer) : settleAt b buffer outcome w = settle b outcome w :=
  expect_locates_bind (fun hastray => h hastray.2) _

/-- What is refused is refused before the position is looked at. -/
theorem settleAt_error (b : BufferId) (buffer : Buffer) (e : WriteError) (w : World σ) :
    settleAt b buffer (.error e) w = .ok (.error e) w :=
  bind_of_ok _ (expect_true _ w)

theorem stage_eq {b : BufferId} {w : World σ} (h : ¬(w.buffer b).Astray w.profile) (me : Thread)
    (bytes : List UInt8) :
    stage b me bytes w = settle b ((w.buffer b).stage me bytes) w :=
  settleAt_eq h _

theorem write_eq {b : BufferId} {w : World σ} (h : ¬(w.buffer b).Astray w.profile) (me : Thread)
    (bytes : List UInt8) :
    write b me bytes w = settle b ((w.buffer b).write me bytes) w :=
  settleAt_eq h _

section Writes

variable {b : BufferId} {w : World σ} {me : Thread} {e : WriteError} {buffer : Buffer}

theorem stage_of_ok (horder : (w.buffer b).InOrder) {bytes : List UInt8}
    (h : (w.buffer b).stage me bytes = .ok buffer) :
    (stage b me bytes : PoolM σ _) w = .ok (.ok ()) (w.modifyBuffer b fun _ => buffer) := by
  rw [stage_eq (horder.not_astray _), h]
  rfl

theorem write_of_ok (horder : (w.buffer b).InOrder) {bytes : List UInt8}
    (h : (w.buffer b).write me bytes = .ok buffer) :
    (write b me bytes : PoolM σ _) w = .ok (.ok ()) (w.modifyBuffer b fun _ => buffer) := by
  rw [write_eq (horder.not_astray _), h]
  rfl

theorem stage_of_error {bytes : List UInt8} (h : (w.buffer b).stage me bytes = .error e) :
    (stage b me bytes : PoolM σ _) w = .ok (.error e) w := by
  rw [stage, getBuffer_bind, h]
  exact settleAt_error b _ e w

theorem commit_of_error {count : UInt64} (h : (w.buffer b).commit me count = .error e) :
    (commit b me count : PoolM σ _) w = .ok (.error e) w := by
  rw [commit, getBuffer_bind, h]
  rfl

theorem write_of_error {bytes : List UInt8} (h : (w.buffer b).write me bytes = .error e) :
    (write b me bytes : PoolM σ _) w = .ok (.error e) w := by
  rw [write, getBuffer_bind, h]
  exact settleAt_error b _ e w

/-- A write that is not refused leaves what was written. -/
theorem write_eq_ok {bytes : List UInt8} {w' : World σ}
    (h : write b me bytes w = .ok (.ok ()) w') :
    ∃ buffer, (w.buffer b).write me bytes = .ok buffer ∧ w' = w.modifyBuffer b fun _ => buffer := by
  cases ho : (w.buffer b).write me bytes with
  | error e =>
      rw [write_of_error ho] at h
      exact nomatch (EStateM.Result.ok.inj h).1
  | ok buffer =>
      rw [write, getBuffer_bind, ho] at h
      obtain ⟨_, _, hmet, hdone⟩ := bind_eq_ok h
      obtain rfl := expect_eq_ok hmet
      exact ⟨buffer, rfl, (EStateM.Result.ok.inj hdone).2.symm⟩

end Writes

theorem leaves_stage (b : BufferId) (me : Thread) (bytes : List UInt8) (w : World σ) :
    (stage b me bytes).leaves w =
      w.work b (if (w.buffer b).Astray w.profile then [] else [.stage me bytes]) :=
  leaves_settleAt (fun _ => rfl) w

theorem leaves_commit (b : BufferId) (me : Thread) (count : UInt64) (w : World σ) :
    (commit b me count).leaves w = w.work b [.commit me count] :=
  leaves_settle (fun _ => rfl) w

theorem leaves_write (b : BufferId) (me : Thread) (bytes : List UInt8) (w : World σ) :
    (write b me bytes).leaves w =
      w.work b (if (w.buffer b).Astray w.profile then [] else [.write me bytes]) :=
  leaves_settleAt (fun _ => rfl) w

theorem leaves_read (b : BufferId) (me : Thread) (w : World σ) : (read b me).leaves w = w := by
  rw [read, leaves_getBuffer_bind]
  split_ifs
  · rw [leaves_expect_bind]
    split_ifs <;> rfl
  · rfl

theorem leaves_flush (b : BufferId) (w : World σ) :
    (flush b).leaves w = w.work b [.flush] :=
  (work_singleton (f := fun _ => (w.buffer b).flush.2) rfl).symm

section Transfers

variable {old new : BufferId} {w : World σ} {me : Thread} {used requested : UInt64}

/-- The source is looked at first, unless it is the target. -/
theorem carryOver_of_astray (hne : old ≠ new) (h : (w.buffer old).Astray w.profile) :
    (carryOver old new me used requested : PoolM σ Unit) w =
      .error (.unexpected .withinPayload) w := by
  have hmet : (old == new || (w.buffer old).locates (w.buffer old).pos) = false :=
    Bool.or_eq_false_iff.2 ⟨beq_eq_false_iff_ne.2 hne, h.2⟩
  rw [carryOver, getBuffer_bind, getBuffer_bind, hmet]
  exact bind_of_error _ (expect_of_checked _ h.1)

/-- A transfer that is refused changes nothing. -/
theorem carryOver_of_error {fault : TransferFault}
    (hsource : ¬(old ≠ new ∧ (w.buffer old).Astray w.profile))
    (h : (w.buffer old).carryOver (w.buffer new) (old == new) me used requested = .error fault) :
    (carryOver old new me used requested : PoolM σ Unit) w = .error (.transfer fault) w := by
  rw [carryOver, getBuffer_bind, getBuffer_bind,
    expect_locates_bind fun hastray => hsource ⟨beq_eq_false_iff_ne.1 hastray.1, hastray.2⟩, h]
  rfl

theorem carryOver_of_ok {buffer : Buffer}
    (hsource : ¬(old ≠ new ∧ (w.buffer old).Astray w.profile))
    (htarget : ¬(w.buffer new).Astray w.profile)
    (h : (w.buffer old).carryOver (w.buffer new) (old == new) me used requested = .ok buffer) :
    (carryOver old new me used requested : PoolM σ Unit) w =
      .ok () (w.modifyBuffer new fun _ => buffer) := by
  rw [carryOver, getBuffer_bind, getBuffer_bind,
    expect_locates_bind fun hastray => hsource ⟨beq_eq_false_iff_ne.1 hastray.1, hastray.2⟩, h]
  have hlocated : ¬(false = false ∧ (w.buffer new).Astray w.profile) := fun hastray => htarget hastray.2
  exact expect_locates_bind hlocated _

end Transfers

/-- Carrying over is one act of the target, unless the profile finds one of the two positions astray.
Into itself nothing is carried over. -/
theorem leaves_carryOver (old new : BufferId) (me : Thread) (used requested : UInt64)
    (w : World σ) :
    (carryOver old new me used requested).leaves w =
      w.work new (if old = new ∨ (w.buffer old).Astray w.profile ∨ (w.buffer new).Astray w.profile
        then [] else [.carryOver (w.buffer old) me used requested]) := by
  rw [carryOver, leaves_getBuffer_bind, leaves_getBuffer_bind, leaves_expect_bind]
  by_cases hsame : old = new
  · subst hsame
    have hself : (w.buffer old).carryOver (w.buffer old) (old == old) me used requested =
        .error .sameBuffer := if_pos (beq_self_eq_true old)
    simp only [true_or, if_true, work_nil, hself]
    split_ifs <;> rfl
  · rw [beq_eq_false_iff_ne.2 hsame, Bool.false_or]
    change (if (w.buffer old).Astray w.profile then w else _) = _
    let a : Act := .carryOver (w.buffer old) me used requested
    have hact : a.apply (w.buffer new) = ((w.buffer old).carryOver (w.buffer new) false me used
        requested).toOption.getD (w.buffer new) := rfl
    by_cases hold : (w.buffer old).Astray w.profile
    · rw [if_pos hold, if_pos (.inr (.inl hold)), work_nil]
    · rw [if_neg hold]
      simp only [hsame, hold, false_or]
      cases ho : (w.buffer old).carryOver (w.buffer new) false me used requested with
      | error fault =>
          rw [ho] at hact
          split_ifs
          · exact (work_nil w new).symm
          · exact (work_of_eq hact).symm
      | ok buffer =>
          rw [ho] at hact
          dsimp only
          rw [leaves_expect_bind]
          change (if (w.buffer new).Astray w.profile then w else _) = _
          split_ifs
          · exact (work_nil w new).symm
          · exact (work_singleton (f := fun _ => buffer) hact).symm

end PoolM

end BufferPool
