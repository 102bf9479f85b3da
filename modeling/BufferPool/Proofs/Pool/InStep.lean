import BufferPool.Pool.Setup
import BufferPool.Proofs.World.Lockstep
import BufferPool.Sweep

/-!
# Pools in both profiles

Every operation of a pool is in step. Most of them make no check, and so they are in step whatever is
admitted; those that make one are in step if failed checks are. Checks stand between changes of lanes
and of buffers: what they read, they leave as it is.
-/

namespace BufferPool

open PoolM

variable {σ α β : Type} {checks : Prop} {p : PoolId} {b : BufferId} {h : Handle}

namespace Pool

theorem inStep_retire : InStep checks (retire p b : PoolM σ Unit) :=
  (inStep_getBuffer b).bind fun _ => (inStep_modifyPool p _).bind fun _ =>
    (inStep_emit _).bind fun _ => inStep_note p _

theorem inStep_retireAll (buffers : List BufferId) :
    InStep checks (retireAll p buffers : PoolM σ Unit) := by
  induction buffers with
  | nil => exact .pure _
  | cons b rest ih => exact inStep_retire.bind fun _ => (inStep_drop b).bind fun _ => ih

theorem inStep_reclaim : InStep checks (reclaim p : PoolM σ Unit) := by
  refine .read_bind (fun _ _ => rfl) fun w => (inStep_onArena p _).bind fun abandoned => ?_
  split_ifs
  · exact (inStep_note p _).bind fun _ => inStep_retireAll abandoned
  · exact .pure _

/-- What is granted does not depend on the profile, nor does the number of the new buffer. -/
theorem inStep_requestPayload (capacity : UInt64) :
    InStep checks (requestPayload p capacity : PoolM σ (Option BufferId)) := by
  refine (inStep_getPool p).bind fun pool => (inStep_modifyPool p _).bind fun _ => ?_
  cases pool.heap.supply.grants capacity with
  | true => exact .of_eq (fun _ _ => rfl) fun _ => trivial
  | false => exact (inStep_emit _).bind fun _ => .pure _

theorem inStep_prepare (capacity : UInt64) :
    InStep checks (prepare capacity : PoolM σ Bool) := by
  refine .of_eq (fun w profile => ?_) fun w => ?_
  · have hformat : (w.under profile).format = w.format := rfl
    rw [prepare, PoolM.get_bind, PoolM.get_bind, hformat]
    cases w.format <;> rfl
  · rw [prepare, PoolM.get_bind]
    cases w.format <;> trivial

theorem inStep_enroll : InStep checks (enroll p b : PoolM σ Handle) :=
  (inStep_owning b (inStep_onArena p _)).bind fun _ => (inStep_retain b).bind fun _ => .pure _

theorem inStep_checkOwner : InStep checks (checkOwner p h : PoolM σ Unit) := by
  unfold checkOwner
  split_ifs
  · exact .throw rfl
  · exact .pure _

theorem inStep_deallocate : InStep checks (deallocate p h : PoolM σ Unit) :=
  (inStep_owning h.buffer (inStep_checkOwner.bind fun _ => inStep_onArena p _)).bind fun b =>
    (inStep_drop h.buffer).bind fun _ => inStep_retire.bind fun _ => inStep_drop b

theorem inStep_insert (lane : Lane) : InStep checks (insert p lane h : PoolM σ Unit) := by
  refine inStep_checkOwner.bind fun _ => (inStep_onArena p _).bind fun _ => ?_
  split_ifs
  · exact (inStep_getBuffer h.buffer).bind fun _ => (inStep_emit _).bind fun _ => inStep_emit _
  · exact inStep_emit _

theorem inStep_remove (lane : Lane) : InStep checks (remove p lane h : PoolM σ Unit) :=
  inStep_checkOwner.bind fun _ => inStep_onArena p _

theorem inStep_move (source : Lane) : InStep checks (move p source h : PoolM σ Unit) :=
  (inStep_remove source).bind fun _ => inStep_insert source.other

theorem inStep_inLane (lane : Lane) : InStep checks (inLane p lane h : PoolM σ Bool) :=
  inStep_checkOwner.bind fun _ => (inStep_getPool p).bind fun _ => .pure _

theorem inStep_count (lane : Lane) : InStep checks (count p lane : PoolM σ Nat) :=
  (inStep_getPool p).bind fun _ => .pure _

theorem inStep_firstFit (size : UInt64) (t : Thread) (entries : List (Arena.Key × BufferId)) :
    InStep checks (firstFit size t entries : PoolM σ (Option (Arena.Key × BufferId))) := by
  induction entries with
  | nil => exact .pure _
  | cons entry rest ih =>
      obtain ⟨key, b⟩ := entry
      refine (inStep_getBuffer b).bind fun buffer => ?_
      split_ifs
      · exact ih
      · refine (inStep_tryAcquire b t).bind fun won => ?_
        split_ifs
        · refine (inStep_getBuffer b).bind fun acquired => ?_
          split_ifs
          · exact .pure _
          · exact (PoolM.inStep_release b).bind fun _ => ih
        · exact ih

theorem inStep_find (size : UInt64) (t : Thread) :
    InStep checks (find p size t : PoolM σ (Option Handle)) := by
  refine (inStep_readArena p _).bind fun entries => ?_
  refine (inStep_firstFit size t entries).bind fun found => ?_
  cases found with
  | none => exact .pure _
  | some entry => exact (inStep_note p _).bind fun _ => (inStep_retain _).bind fun _ => .pure _

/-- The census and the earlier questions decide, and both profiles ask as often. -/
theorem inStep_consult : InStep checks (consult p : PoolM σ Bool) :=
  ((inStep_getPool p).bind fun _ => .pure _).bind fun _ => (inStep_getPool p).bind fun _ =>
    (inStep_modifyPool p _).bind fun _ => (inStep_emit _).bind fun _ => .pure _

theorem inStep_close : InStep checks (close p : PoolM σ Unit) :=
  (inStep_getPool p).bind fun _ => (inStep_onArena p _).bind fun buffers =>
    (inStep_note p _).bind fun _ => (inStep_retireAll buffers).bind fun _ => inStep_modifyPool p _

theorem inStep_add (c : Config) (minimum : UInt64) (live : Bool) :
    InStep checks (add c minimum live : PoolM σ Unit) :=
  .modify fun _ _ => rfl

theorem inStep_capture (lane : Lane) (dir : Direction) :
    InStep checks (capture p lane dir : PoolM σ (List Handle)) :=
  (inStep_readArena p _).bind fun _ => (InStep.modify (regardless_hold _)).bind fun _ => .pure _

theorem inStep_onSome {obtained : Option Handle} {act : Handle → PoolM σ Unit}
    (hact : ∀ handle, InStep checks (act handle)) :
    InStep checks (onSome obtained act) := by
  cases obtained with
  | none => exact .pure _
  | some handle => exact (inStep_owning handle.buffer (hact handle)).bind fun _ => .pure _

theorem inStep_takeDetached (size : UInt64) (t : Thread) :
    InStep checks (takeDetached p size t : PoolM σ (Option Handle)) :=
  (inStep_find size t).bind fun _ => inStep_onSome fun _ => inStep_remove .free

theorem inStep_take (size : UInt64) (t : Thread) :
    InStep checks (take p size t : PoolM σ (Option Handle)) :=
  inStep_find size t

theorem inStep_takeWithin (size : UInt64) (retries : Nat) (t : Thread) (remaining : Nat) :
    InStep checks (takeWithin p size retries t remaining : PoolM σ (Option Handle)) := by
  induction remaining with
  | zero => exact .pure _
  | succ remaining ih =>
      refine (inStep_take size t).bind fun obtained => ?_
      cases obtained with
      | none => exact (inStep_note p _).bind fun _ => ih
      | some handle => exact .pure _

section Checked

variable (hchecks : checks)

include hchecks

theorem inStep_make (requested : UInt64) :
    InStep checks (make p requested : PoolM σ (Option BufferId)) := by
  refine (inStep_getPool p).bind fun pool => ?_
  cases SizeClass.ofRequest? requested pool.minimum with
  | none =>
      exact (inStep_expect hchecks _ _).bind fun _ => (inStep_note p _).bind fun _ => .pure _
  | some capacity =>
      refine (inStep_requestPayload capacity).bind fun granted => ?_
      cases granted with
      | none => exact (inStep_note p _).bind fun _ => .pure _
      | some b =>
          refine (inStep_prepare capacity).bind fun prepared => ?_
          split_ifs
          · exact (inStep_getBuffer b).bind fun _ => (inStep_modifyPool p _).bind fun _ =>
              (inStep_emit _).bind fun _ => (inStep_note p _).bind fun _ => .pure _
          · exact (inStep_drop b).bind fun _ => .pure _

theorem inStep_allocate (requested : UInt64) :
    InStep checks (allocate p requested : PoolM σ (Option Handle)) := by
  refine inStep_reclaim.bind fun _ => (inStep_make hchecks requested).bind fun made => ?_
  cases made with
  | none => exact .pure _
  | some b => exact inStep_enroll.map _

theorem inStep_allocateWithin (requested : UInt64) :
    InStep checks (allocateWithin p requested : PoolM σ (Option Handle)) := by
  refine inStep_reclaim.bind fun _ => (inStep_make hchecks requested).bind fun made => ?_
  cases made with
  | none => exact .pure _
  | some b => exact inStep_enroll.map _

theorem inStep_expectIdle : InStep checks (expectIdle b : PoolM σ Unit) :=
  (inStep_getBuffer b).bind fun _ => (inStep_expect hchecks _ _).bind fun _ =>
    (inStep_expect hchecks _ _).bind fun _ => inStep_expect hchecks _ _

theorem inStep_dispose : InStep checks (dispose p h : PoolM σ Unit) := by
  refine (inStep_getBuffer h.buffer).bind fun buffer => ?_
  split_ifs
  · exact (inStep_note p _).bind fun _ => inStep_deallocate
  · have hdecide : InStep checks (expectIdle h.buffer >>= fun _ => consult p : PoolM σ Bool) :=
      (inStep_expectIdle hchecks).bind fun _ => inStep_consult
    refine (inStep_owning h.buffer hdecide).bind fun keep => ?_
    split_ifs
    · exact (inStep_owning h.buffer (inStep_onArena p _)).bind fun _ =>
        (inStep_emit _).bind fun _ => inStep_drop h.buffer
    · exact inStep_deallocate

theorem inStep_release (lane : Lane) : InStep checks (release p lane h : PoolM σ Unit) :=
  (inStep_owning h.buffer (inStep_remove lane)).bind fun _ => inStep_dispose hchecks

theorem inStep_giveBack (lane : Lane) : InStep checks (giveBack p lane h : PoolM σ Unit) :=
  (inStep_owning h.buffer ((inStep_getBuffer h.buffer).bind fun _ =>
    inStep_expect hchecks _ _)).bind fun _ => inStep_release hchecks lane

theorem inStep_preallocate (allocated remaining : Nat) :
    InStep checks (preallocate p allocated remaining : PoolM σ (Option Nat)) := by
  induction remaining generalizing allocated with
  | zero => exact .pure _
  | succ remaining ih =>
      refine (inStep_getPool p).bind fun pool => ?_
      refine (inStep_allocateWithin hchecks pool.minimum).bind fun obtained => ?_
      cases obtained with
      | none => exact (inStep_note p _).bind fun _ => .pure _
      | some handle =>
          exact (inStep_owning handle.buffer (inStep_insert .free)).bind fun _ =>
            (inStep_drop handle.buffer).bind fun _ => ih _

omit hchecks in
/-- Closing the pool makes no check, so after a fault it goes on alike in both profiles. -/
theorem inStep_closing {act : PoolM σ α} (hact : InStep checks act) :
    InStep checks (closing p act) := by
  have hclosing : closing p act = PoolM.onFault (close p).leaves act := by
    funext w
    unfold closing PoolM.onFault
    cases act w with
    | ok a w' => rfl
    | error fault w' =>
        dsimp only [leaves]
        cases close p w' <;> rfl
  rw [hclosing]
  exact hact.onFault inStep_close.leaves

theorem inStep_build (c : Config) :
    InStep checks (build c : PoolM σ (Except SetupError PoolId)) := by
  refine .read_bind (fun _ _ => rfl) fun w => ?_
  cases c.validate with
  | error e => exact (inStep_add c 0 false).bind fun _ => .pure _
  | ok minimum =>
      refine (inStep_add c minimum true).bind fun _ => ?_
      refine (inStep_closing (inStep_preallocate hchecks 0 c.cacheCount)).bind fun failed => ?_
      cases failed with
      | none => exact (inStep_note _ _).bind fun _ => .pure _
      | some allocated => exact inStep_close.bind fun _ => .pure _

theorem inStep_provide (size : UInt64) :
    InStep checks (provide p size : PoolM σ (Option Handle)) :=
  (inStep_getPool p).bind fun _ => inStep_allocate hchecks _

theorem inStep_provideAcquired (size : UInt64) (t : Thread) :
    InStep checks (provideAcquired p size t : PoolM σ (Option Handle)) :=
  (inStep_provide hchecks size).bind fun _ => inStep_onSome fun handle =>
    inStep_acquire handle.buffer t

theorem inStep_provideTransient (size : UInt64) (t : Thread) :
    InStep checks (provideTransient p size t : PoolM σ (Option Handle)) :=
  (inStep_provideAcquired hchecks size t).bind fun _ => inStep_onSome fun handle =>
    (inStep_getBuffer handle.buffer).bind fun _ => (inStep_expect hchecks _ _).bind fun _ =>
      inStep_markTransient handle.buffer

theorem inStep_provideLease (size : UInt64) (t : Thread) :
    InStep checks (provideLease p size t : PoolM σ (Option Handle)) :=
  (inStep_provideTransient hchecks size t).bind fun _ => inStep_onSome fun handle =>
    inStep_markLease hchecks handle.buffer

theorem inStep_provideFull (size : UInt64) (t : Thread) :
    InStep checks (provideFull p size t : PoolM σ (Option Handle)) :=
  (inStep_getPool p).bind fun _ => (inStep_allocateWithin hchecks _).bind fun _ =>
    inStep_onSome fun handle => (inStep_acquire handle.buffer t).bind fun _ => inStep_insert .full

theorem inStep_provideTransientFull (size : UInt64) (t : Thread) :
    InStep checks (provideTransientFull p size t : PoolM σ (Option Handle)) :=
  (inStep_provideTransient hchecks size t).bind fun _ => inStep_onSome fun _ => inStep_insert .full

theorem inStep_provideLeaseTo (lane : Lane) (size : UInt64) (t : Thread) :
    InStep checks (provideLeaseTo p lane size t : PoolM σ (Option Handle)) :=
  (inStep_provideLease hchecks size t).bind fun _ => inStep_onSome fun handle =>
    (inStep_insert lane).bind fun _ => (inStep_getBuffer handle.buffer).bind fun _ =>
      inStep_expect hchecks _ _

theorem inStep_takeRetrying (size : UInt64) (retries : Nat) (t : Thread) :
    InStep checks (takeRetrying p size retries t : PoolM σ (Option Handle)) :=
  (inStep_getPool p).bind fun _ => (inStep_expect hchecks _ _).bind fun _ =>
    inStep_takeWithin size retries t retries

theorem inStep_takeToFull (size : UInt64) (t : Thread) :
    InStep checks (takeToFull p size t : PoolM σ (Option Handle)) :=
  (inStep_getPool p).bind fun _ => (inStep_expect hchecks _ _).bind fun _ =>
    (inStep_find size t).bind fun _ => inStep_onSome fun _ => inStep_move .free

theorem inStep_obtainFull (size : UInt64) (t : Thread) :
    InStep checks (obtainFull p size t : PoolM σ (Option Handle)) := by
  refine (inStep_getPool p).bind fun pool => ?_
  dsimp only
  split_ifs
  · refine (inStep_takeToFull hchecks _ t).bind fun obtained => ?_
    cases obtained with
    | none => exact inStep_provideFull hchecks _ t
    | some handle => exact .pure _
  · exact inStep_provideFull hchecks _ t

theorem inStep_makeLease : InStep checks (makeLease h : PoolM σ Unit) :=
  (inStep_markTransient h.buffer).bind fun _ => inStep_markLease hchecks h.buffer

theorem inStep_takeLeaseRetrying (size : UInt64) (retries : Nat) (t : Thread) :
    InStep checks (takeLeaseRetrying p size retries t : PoolM σ (Option Handle)) :=
  (inStep_takeRetrying hchecks size retries t).bind fun _ => inStep_onSome fun _ =>
    inStep_makeLease hchecks

theorem inStep_obtainLease (size : UInt64) (t : Thread) :
    InStep checks (obtainLease p size t : PoolM σ (Option Handle)) := by
  refine (inStep_take size t).bind fun obtained => ?_
  cases obtained with
  | none => exact inStep_provideLeaseTo hchecks .full size t
  | some handle =>
      exact inStep_onSome fun handle => (inStep_makeLease hchecks).bind fun _ =>
        (inStep_getBuffer handle.buffer).bind fun _ => inStep_expect hchecks _ _

variable {visit : β → Handle → PoolM σ (Bool × β)}
  (hvisit : ∀ carried handle, InStep checks (visit carried handle))

include hvisit

omit hchecks in
theorem inStep_visitAll (start : β) (handles : List Handle) :
    InStep checks (visitAll visit start handles) := by
  induction handles generalizing start with
  | nil => exact .pure _
  | cons handle rest ih =>
      refine (hvisit start handle).bind fun r => ?_
      obtain ⟨more, carried⟩ := r
      dsimp only
      split_ifs
      · exact ih carried
      · exact .pure _

omit hchecks in
theorem inStep_traverse (lane : Lane) (dir : Direction) (start : β) :
    InStep checks (traverse p lane dir visit start) :=
  (inStep_capture lane dir).bind fun handles => InStep.ensuring
    ((inStep_note p _).bind fun _ => inStep_visitAll hvisit start handles) regardless_letGo

theorem inStep_travel (route : Route) (dir : Direction) (start : β) :
    InStep checks (travel p route dir visit start) := by
  cases route with
  | full =>
      refine (inStep_count .full).bind fun n => ?_
      split_ifs
      · exact .pure _
      · exact (inStep_traverse hvisit .full dir start).bind fun _ => .pure _
  | free =>
      exact (inStep_count .free).bind fun _ => (inStep_expect hchecks _ _).bind fun _ =>
        (inStep_traverse hvisit .free dir start).bind fun _ => .pure _
  | lane lane => exact (inStep_traverse hvisit lane dir start).bind fun _ => .pure _

end Checked

end Pool

namespace Sweep

theorem inStep_hold (s : Sweep) (me : Thread) : InStep checks (s.hold me b : PoolM σ Bool) := by
  refine (inStep_getBuffer b).bind fun buffer => ?_
  split_ifs
  · exact .pure _
  · exact inStep_tryAcquire b s.maker

variable (hchecks : checks) (me : Thread)

include hchecks

theorem inStep_recycle : InStep checks (recycle me b : PoolM σ Unit) :=
  (inStep_reset b me).bind fun _ => (inStep_getBuffer b).bind fun _ =>
    (inStep_expect hchecks _ _).bind fun _ => (inStep_getBuffer b).bind fun _ =>
      (inStep_expect hchecks _ _).bind fun _ => PoolM.inStep_release b

theorem inStep_visit (s : Sweep) (h : Handle) :
    InStep checks (s.visit me h : PoolM σ (Bool × Sweep)) := by
  refine (inStep_getBuffer h.buffer).bind fun buffer => ?_
  split_ifs
  · exact (inStep_retain h.buffer).bind fun _ =>
      (Pool.inStep_giveBack hchecks s.lane).bind fun _ => .pure _
  · refine (inStep_hold s me).bind fun held => ?_
    split_ifs
    · exact (inStep_recycle hchecks me).bind fun _ => .pure _
    · exact .pure _

theorem inStep_passes (route : Pool.Route) (dir : Direction) (n : Nat) (s : Sweep) :
    InStep checks (passes me route dir n s : PoolM σ (List UInt64)) := by
  induction n generalizing s with
  | zero => exact .pure _
  | succ n ih =>
      have hpass : InStep checks (s.pass me route dir : PoolM σ Sweep) :=
        (Pool.inStep_travel hchecks (inStep_visit hchecks me) route dir s).bind fun _ => .pure _
      exact hpass.bind fun s' => (ih s').bind fun _ => .pure _

end Sweep

end BufferPool
