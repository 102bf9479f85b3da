import BufferPool.Producer
import BufferPool.Proofs.Pool.Reclaiming
import BufferPool.Proofs.SizeClass
import BufferPool.Proofs.World.Wording

/-!
# All ways to allocate agree

A buffer can be allocated from outside of the critical section, from inside of it, and with the
request raised to the smallest class first. The first two are the same operation. The last one gives
the same answer and leaves the same pool behind, and whoever hears of it hears the same. Only the log
and the failed check name the raised size.
-/

namespace BufferPool.Pool

open PoolM World

variable {σ : Type} {w w' : World σ} {p : PoolId} {pool : Pool} {requested raised : UInt64}

theorem retire_restates (b : BufferId) :
    Restates raised (retire p b : PoolM σ Unit) (retire p b) :=
  (getBuffer_restates b).bind fun _ => (modifyPool_restates p _).bind fun _ =>
    (emit_restates (.deallocated p b _)).bind fun _ => note_restates p (.deallocated _)

theorem retireAll_restates (buffers : List BufferId) :
    Restates raised (retireAll p buffers : PoolM σ Unit) (retireAll p buffers) := by
  induction buffers with
  | nil => exact .pure ()
  | cons b rest ih => exact (retire_restates b).bind fun _ => (drop_restates b).bind fun _ => ih

theorem reclaim_restates : Restates raised (reclaim p : PoolM σ Unit) (reclaim p) := by
  refine .read_bind (fun _ _ => rfl) fun w => (onArena_restates p _).bind fun abandoned => ?_
  split_ifs
  · exact (note_restates p (.reclaiming _)).bind fun _ => retireAll_restates abandoned
  · exact .pure ()

theorem requestPayload_restates (capacity : UInt64) :
    Restates raised (requestPayload p capacity : PoolM σ (Option BufferId))
      (requestPayload p capacity) := by
  refine (getPool_restates p).bind fun pool => (modifyPool_restates p _).bind fun _ => ?_
  cases pool.heap.supply.grants capacity with
  | true =>
      intro w events
      exact .ok [.granted p w.cells.size (if pool.heap.recorded then some w.tags else none) capacity]
        rfl
  | false =>
      refine Restates.bind ?_ fun _ => .pure none
      cases pool.heap.supply.permits capacity with
      | true => exact emit_restates (.unserved p capacity)
      | false => exact emit_restates (.refused p capacity)

theorem prepare_restates (capacity : UInt64) :
    Restates raised (prepare capacity : PoolM σ Bool) (prepare capacity) := by
  intro w events
  have hformat : (w.recording events).format = w.format := rfl
  rw [prepare, PoolM.get_bind, PoolM.get_bind, hformat]
  cases w.format with
  | plain => exact .ok [] rfl
  | metered => exact .ok [] rfl

theorem enroll_restates (b : BufferId) :
    Restates raised (enroll p b : PoolM σ Handle) (enroll p b) :=
  (owning_restates b (onArena_restates p _)).bind fun _ => (retain_restates b).bind fun _ => .pure _

/-- What is made depends on the class of the request only. -/
theorem make_restated (hp : w.pool? p = some pool)
    (hclass : SizeClass.ofRequest? raised pool.minimum =
      SizeClass.ofRequest? requested pool.minimum) (events : List Event) :
    Restated raised w.events events (make p requested w) (make p raised (w.recording events)) := by
  have hp' : (w.recording events).pool? p = some pool := hp
  rw [make, make, bind_of_ok _ (getPool_of_some hp), bind_of_ok _ (getPool_of_some hp'), hclass]
  cases SizeClass.ofRequest? requested pool.minimum with
  | none =>
      have hnone : Restates raised
          (do expect false (.representable requested)
              note p (.tooLarge requested)
              return none : PoolM σ (Option BufferId))
          (do expect false (.representable raised)
              note p (.tooLarge raised)
              return none) :=
        (expect_representable_restates false requested).bind fun _ =>
          (note_restates p (.tooLarge requested)).bind fun _ => .pure none
      exact hnone w events
  | some capacity =>
      refine (requestPayload_restates capacity).bind (fun granted => ?_) w events
      cases granted with
      | none => exact (note_restates p (.heapFailed requested capacity)).bind fun _ => .pure none
      | some b =>
          refine (prepare_restates capacity).bind fun ready => ?_
          cases ready with
          | false => exact (drop_restates b).bind fun _ => .pure none
          | true =>
              exact (getBuffer_restates b).bind fun _ => (modifyPool_restates p _).bind fun _ =>
                (emit_restates (.allocated p b _)).bind fun _ =>
                  (note_restates p (.allocated requested capacity _)).bind fun _ => .pure (some b)

/-- Getting rid of what is abandoned does not change the smallest class. -/
theorem minimum?_of_reclaim (h : reclaim p w = .ok () w') (q : PoolId) :
    w'.minimum? q = w.minimum? q := by
  rw [reclaim, PoolM.get_bind] at h
  obtain ⟨abandoned, w₁, hon, hrest⟩ := bind_eq_ok h
  obtain ⟨pool, arena, hp, -, rfl⟩ := onArena_eq_ok hon
  have hset : (w.setArena p arena).minimum? q = w.minimum? q :=
    map_pool?_modifyPool w p q (by intro; rfl) (by intro; rfl)
  have hquiet : PoolM.Quiet (σ := σ) (if (!abandoned.isEmpty) = true then do
      note p (.reclaiming abandoned.length)
      retireAll p abandoned
    else return) := by
    split_ifs
    · exact (quiet_note p _).bind fun _ => quiet_retireAll p abandoned
    · exact .pure ()
  have hsame := (hquiet (w.setArena p arena)).minimum q
  rw [leaves_of_ok hrest] at hsame
  exact hsame.trans hset

/-- What is allocated depends on the class of the request only. -/
theorem allocate_restated (hp : w.pool? p = some pool)
    (hclass : SizeClass.ofRequest? raised pool.minimum =
      SizeClass.ofRequest? requested pool.minimum) (events : List Event) :
    Restated raised w.events events (allocate p requested w)
      (allocate p raised (w.recording events)) := by
  refine Restated.bind (reclaim_restates w events) fun _ w₁ hreclaim events => ?_
  have hminimum : w₁.minimum? p = some pool.minimum :=
    (minimum?_of_reclaim hreclaim p).trans (minimum?_of_pool? hp)
  obtain ⟨pool₁, hp₁, hsame⟩ := Option.map_eq_some_iff.1 hminimum
  rw [← hsame] at hclass
  refine Restated.bind (make_restated hp₁ hclass events) fun made w₂ _ events => ?_
  cases made with
  | none => exact Restates.pure none w₂ events
  | some b => exact (enroll_restates b).map some w₂ events

/-- The size for which a pool allocates when it is asked for `size`, raised to its smallest class. -/
def raisedIn (w : World σ) (p : PoolId) (size : UInt64) : UInt64 :=
  SizeClass.atLeast size ((w.minimum? p).getD 0)

theorem provide_eq_allocate (hp : w.pool? p = some pool) (size : UInt64) :
    provide p size w = allocate p (raisedIn w p size) w := by
  rw [provide, bind_of_ok _ (getPool_of_some hp), raisedIn, minimum?_of_pool? hp, Option.getD_some]

/-- An allocation of the raised size is the allocation of the size, but for the wording. -/
theorem provide_restated (w : World σ) (p : PoolId) (size : UInt64) :
    Restated (raisedIn w p size) w.events w.events (allocate p size w) (provide p size w) := by
  cases hp : w.pool? p with
  | none =>
      have hallocate : allocate p size w = .error (.noPool p) w := by
        have hreclaim : reclaim p w = .error (.noPool p) w := by
          rw [reclaim, PoolM.get_bind, bind_of_error _ (onArena_of_none hp)]
        rw [allocate, bind_of_error _ hreclaim]
      have hprovide : provide p size w = .error (.noPool p) w := by
        rw [provide, bind_of_error _ (getPool_of_none hp)]
      rw [hallocate, hprovide]
      exact .error [] rfl
  | some pool =>
      have hclass : SizeClass.ofRequest? (raisedIn w p size) pool.minimum =
          SizeClass.ofRequest? size pool.minimum := by
        rw [raisedIn, minimum?_of_pool? hp]
        exact SizeClass.ofRequest?_atLeast size pool.minimum
      rw [provide_eq_allocate hp]
      exact allocate_restated hp hclass w.events

/-- How the same request ends wherever it is made. -/
structure Agreeing (w : World σ) (p : PoolId) (size : UInt64) : Prop where
  within : allocateWithin p size w = allocate p size w
  answer : (provide p size).run' w = (allocate p size).run' w
  fault_iff : ∀ fault, (∃ w', provide p size w = .error fault w') ↔
    ∃ fault' w', fault = fault'.requesting (raisedIn w p size) ∧
      allocate p size w = .error fault' w'
  /-- The same world is left behind, up to the size in the notes that are told on the way. -/
  leaves : ∃ told, ((allocate p size).leaves w).events = told ++ w.events ∧
    (provide p size).leaves w = ((allocate p size).leaves w).recording
      (told.map (.requesting (raisedIn w p size)) ++ w.events)
  /-- Heaps, listeners and retention rules hear the same, in the same order. -/
  heard : ((provide p size).leaves w).events.filter Event.isHeard =
    ((allocate p size).leaves w).events.filter Event.isHeard
  /-- What is larger than the smallest class is not raised. -/
  above : ∀ pool, w.pool? p = some pool → pool.minimum < size →
    provide p size w = allocate p size w

/-- In every world and for every size, an allocation ends alike inside and outside of the critical
section, with the request raised to the smallest class or not. The answers are the same, including
the keys, and the same cases fault. The same world is left behind, and everything that is not a note
for a log was told in the same order. Only the notes and the failed check may name the raised size. -/
theorem allocations_agree (w : World σ) (p : PoolId) (size : UInt64) : Agreeing w p size where
  within := by rw [allocateWithin_eq_allocate]
  answer := (provide_restated w p size).answer
  fault_iff := (provide_restated w p size).fault_iff
  leaves := (provide_restated w p size).leaves
  heard := by
    obtain ⟨told, htold, hleaves⟩ := (provide_restated w p size).leaves
    rw [hleaves, htold]
    change List.filter Event.isHeard (told.map (.requesting _) ++ w.events) = _
    rw [List.filter_append, List.filter_append, Event.filter_isHeard_map_requesting]
  above := by
    intro pool hp habove
    have hraised : raisedIn w p size = size := by
      rw [raisedIn, minimum?_of_pool? hp, Option.getD_some, SizeClass.atLeast,
        if_neg (UInt64.not_le.2 habove)]
    rw [provide_eq_allocate hp, hraised]

end BufferPool.Pool
